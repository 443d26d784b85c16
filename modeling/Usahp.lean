import Usahp.StateHistory
import Usahp.Release
import Usahp.Broker.Escape
import Usahp.Broker.Isolation
import Usahp.Broker.Gapless
import Usahp.Broker.Log
import Usahp.Broker.Focus
import Usahp.Broker.View
import Usahp.Server.Answers
import Usahp.Server.FocusReports
import Usahp.SimulatorInput
import Usahp.Wire
import Usahp.Capture.Backends
import Usahp.Capture.Control
import Usahp.Capture.Epochs
import Usahp.Capture.MacosKeyboard
import Usahp.Capture.Grab
import Usahp.Broker.Offered
import Usahp.Broker.Queue
import Usahp.FocusWatcher
import Usahp.Library.Mailbox
import Usahp.Broker.Careful
import Usahp.Capture.Drain
import Usahp.Capture.Outage
import Usahp.Startup
