import Infotainment.Library.EventSystem
import Infotainment.Library.Occurrence
import Infotainment.Library.Blocks
import Infotainment.Library.LineReader
import Infotainment.Library.Slices
import Infotainment.Text
import Infotainment.SystemInterface
import Infotainment.PipeReader
import Infotainment.Multimedia
import Infotainment.MediaLists
import Infotainment.ScanLoop
import Infotainment.ScanRoundTrip
import Infotainment.ShelfLaws
import Infotainment.MainScreen
import Infotainment.FlashStatus
import Infotainment.Bluetooth
import Infotainment.Events
import Infotainment.Transitions
import Infotainment.ParallelLists
import Infotainment.Parts
import Infotainment.RowAccess
import Infotainment.StickTracking
import Infotainment.Mounting
import Infotainment.PlayingFlags
import Infotainment.Exclusion
import Infotainment.MediaLabel
import Infotainment.RowClicks
import Infotainment.Volume
import Infotainment.Seeking
import Infotainment.PlaybackIcons
import Infotainment.PollReturns
import Infotainment.PollTwice
import Infotainment.BluetoothDetection
import Infotainment.BluetoothLabel
import Infotainment.DeviceSelection
import Infotainment.FileTree
import Infotainment.EmptinessTest
import Infotainment.PartRuns
import Infotainment.Sessions
import Infotainment.Tokeniser
import Infotainment.MediaBar
import Infotainment.ShelfPolls
import Infotainment.CleanMachine
import Infotainment.StickContents
import Infotainment.Screen
import Infotainment.Library.Jukebox
import Infotainment.Library.ShellWords
import Infotainment.ShelfJukebox
import Infotainment.SongJukebox
import Infotainment.VideoJukebox
import Infotainment.PlayThrough
import Infotainment.Listings
import Infotainment.CommandTexts
import Infotainment.ClockCommand
