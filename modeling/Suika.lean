import Suika.UdpLifecycle
import Suika.ArpLan
import Suika.ArpCodec
import Suika.ArpHandler
import Suika.Ipv4Codec
import Suika.Ipv4Input
import Suika.Checksum
import Suika.IcmpReply
import Suika.UdpOversize
import Suika.EtherFrameFields
import Suika.Ipv4Fields
import Suika.Ipv4Text
import Suika.EtherAddrText
import Suika.HeaderBounds
import Suika.Dispatch
import Suika.UdpWakeup
import Suika.UdpSolo
import Suika.Wire
import Suika.EchoShutdown
import Suika.Network
import Suika.StackThreads
import Suika.EchoLink
