import HnsDaneEngine.Browser.Chain.OneByOne
import HnsDaneEngine.Browser.Dnssec.Agreement
import HnsDaneEngine.Browser.Dnssec.RsaSha1
import HnsDaneEngine.Browser.Dnssec.SignerName
import HnsDaneEngine.Browser.Dnssec.UnsupportedDs
import HnsDaneEngine.Browser.Resolver.NameError
import HnsDaneEngine.Browser.Resolver.NoData
import HnsDaneEngine.Browser.Resolver.Nsec3NameError
import HnsDaneEngine.Browser.Resolver.SecurePath
import HnsDaneEngine.Browser.ResourceAgreement
import HnsDaneEngine.Cache.Eviction
import HnsDaneEngine.Cache.ExpiringLru
import HnsDaneEngine.Dane.RecordOrder
import HnsDaneEngine.Dane.Stateless
import HnsDaneEngine.Dnssec.OwnerHash
import HnsDaneEngine.Dnssec.SignedForm
import HnsDaneEngine.Dnssec.ZoneCut
import HnsDaneEngine.Dnssec.ZoneKey
import HnsDaneEngine.Engine.Epoch
import HnsDaneEngine.Light.Agreement
import HnsDaneEngine.Light.Currency
import HnsDaneEngine.Light.RoundTrip
import HnsDaneEngine.LightPeer.Correlation
import HnsDaneEngine.LightWallet.Completeness
import HnsDaneEngine.LightWallet.Union
import HnsDaneEngine.LoopbackProxy.ChunkedBodies
import HnsDaneEngine.LoopbackProxy.Grants
import HnsDaneEngine.LoopbackProxy.Retry
import HnsDaneEngine.NamedRoute.Restoring
import HnsDaneEngine.NamedRoute.Retirement
import HnsDaneEngine.NamespaceResolution.Canonical
import HnsDaneEngine.NamespaceResolution.Separation
import HnsDaneEngine.P2pTransport.Runs
import HnsDaneEngine.PeerWire.Chunking
import HnsDaneEngine.PeerWire.Diversity
import HnsDaneEngine.Primitives.Compact
import HnsDaneEngine.RelayClient.Availability
import HnsDaneEngine.Resolver.Run
import HnsDaneEngine.Sync.ProofBinding
import HnsDaneEngine.Transport.Attempts
import HnsDaneEngine.Transport.Authority
import HnsDaneEngine.Urkel.Layout
import HnsDaneEngine.Urkel.Tree
import HnsDaneEngine.Wire.Reencode
