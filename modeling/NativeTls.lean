import NativeTls.Utf8
import NativeTls.Pem
import NativeTls.Platform
import NativeTls.Identity.Pkcs8
import NativeTls.Connector
import NativeTls.EngineString
import NativeTls.Identity.OsProvider
import NativeTls.Identity.Containers
import NativeTls.Stream
import NativeTls.Handshake
import NativeTls.Identity.ProviderRuns
