import Dmpv.Timer.Clock
import Dmpv.Timer.Realtime
import Dmpv.Hwdec.QueueFamily
import Dmpv.Hwdec.Init
import Dmpv.Hwdec.Frame
import Dmpv.Hwdec.Unmap
import Dmpv.Hwdec.Map
import Dmpv.Hwdec.Interleave
import Dmpv.Hwdec.Session
import Dmpv.Hwdec.QueueLock
import Dmpv.Hwdec.Timeline
import Dmpv.Wayland.Wldmabuf
import Dmpv.Build.Version
import Dmpv.Build.Install
