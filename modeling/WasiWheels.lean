import WasiWheels.Transport.Addresses
import WasiWheels.Adapters.Arguments
import WasiWheels.Transport.Dispatch
import WasiWheels.Transport.Frees
import WasiWheels.Transport.Leaks
import WasiWheels.Transport.Streaming
import WasiWheels.Transport.Urls
import WasiWheels.Native.OperatorNew
import WasiWheels.Native.Limits
import WasiWheels.Build.Invocations
import WasiWheels.Build.Collecting
import WasiWheels.Build.Bumps
import WasiWheels.Build.Zipping
import WasiWheels.Build.Preparing
import WasiWheels.Index.Simple
import WasiWheels.Index.Partition
import WasiWheels.Index.Faithful
import WasiWheels.Publish.Careful
import WasiWheels.Native.Offsets
import WasiWheels.Native.Sharing
import WasiWheels.Native.Series
import WasiWheels.Transport.Merged
