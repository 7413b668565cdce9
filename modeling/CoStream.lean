import CoStream.DataBufferFifo
import CoStream.AcceptConnStream
import CoStream.AcceptConnReceive
import CoStream.WebSocketLength
import CoStream.WebSocketSend
import CoStream.WebSocketControl
import CoStream.WebSocketFragments
import CoStream.WebSocketClose
import CoStream.HttpSlices
import CoStream.HttpRoundTrip
import CoStream.HttpDelivery
import CoStream.CoHttpLifetime
import CoStream.WebSocketHandshake
import CoStream.WebSocketEnds
import CoStream.RtmpAnswer
import CoStream.TlsHandshake
import CoStream.TlsRecords
import CoStream.RtmpClientHello
import CoStream.RtmpConsume
import CoStream.CoHttpPost
import CoStream.HttpDispatch
import CoStream.HttpPreflight
import CoStream.DataBufferCompaction
import CoStream.TcpCoConnSend
import CoStream.AwaiterAgreement
import CoStream.AcceptConnEnd
import CoStream.HttpStatus
import CoStream.WebSocketEmission
import CoStream.DataBufferDeepCopy
import CoStream.RtmpSplice
import CoStream.RtmpDigestCheck
import CoStream.WebSocketCloseReply
import CoStream.WebSocketAnswer
import CoStream.WebSocketFieldNames
import CoStream.HttpQuery
import CoStream.HttpContentLength
import CoStream.HttpSpelling
import CoStream.ByteCrypto
import CoStream.Base64Decode
import CoStream.TcpConnect
import CoStream.MediaWindow
import CoStream.StringSplit
import CoStream.HttpUri
import CoStream.CoTcpServerRun
import CoStream.EchoPair
import CoStream.TcpClient
import CoStream.RtmpConversation
import CoStream.HttpServerLifetime
import CoStream.WebSocketKeepalive
import CoStream.HttpConversation
import CoStream.WebSocketConversation
