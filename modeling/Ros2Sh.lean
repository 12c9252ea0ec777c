import Ros2Sh.Service.ClientProxy
import Ros2Sh.Service.Routing
import Ros2Sh.Service.Growth
import Ros2Sh.Service.Transparency
import Ros2Sh.Service.Progress
import Ros2Sh.Service.Executors
import Ros2Sh.SystemHandle.Configure
import Ros2Sh.SystemHandle.Endpoints
import Ros2Sh.SystemHandle.Proxies
import Ros2Sh.SystemHandle.QosProfiles
import Ros2Sh.SystemHandle.Network
import Ros2Sh.SystemHandle.Registered
import Ros2Sh.SystemHandle.Lifecycle
import Ros2Sh.Converter.RoundTrip
import Ros2Sh.Rosidl.Reconstruction
import Ros2Sh.Rosidl.Generate
import Ros2Sh.Rosidl.Printed
import Ros2Sh.Rosidl.OutputPaths
import Ros2Sh.Rosidl.Disk
