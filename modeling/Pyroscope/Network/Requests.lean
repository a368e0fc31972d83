import Mathlib.Algebra.Ring.Int.Defs

/-!
# Requests in progress

A request has one record, and a second one for all the redirected requests. Times and durations are
in nanoseconds.
-/

namespace Pyroscope.Network

structure NetworkRequestCommon where
  url : String
  startTimestamp : Int
  dnsWait : Int
  dnsStartTime : Int
  dnsDuration : Int
  handshakeWait : Int
  handshakeStartTime : Int
  handshakeDuration : Int
  socketConnectStartTime : Int
  socketDuration : Int
  requestHeadersStartTimestamp : Int
  requestDuration : Int
  responseContentStartTimestamp : Int
  responseDuration : Int
  deriving DecidableEq

def NetworkRequestCommon.new (url : String) (timestamp : Int) : NetworkRequestCommon where
  url
  startTimestamp := timestamp
  dnsWait := 0
  dnsStartTime := 0
  dnsDuration := 0
  handshakeWait := 0
  handshakeStartTime := 0
  handshakeDuration := 0
  socketConnectStartTime := 0
  socketDuration := 0
  requestHeadersStartTimestamp := 0
  requestDuration := 0
  responseContentStartTimestamp := 0
  responseDuration := 0

structure NetworkRequestInfo extends NetworkRequestCommon where
  dnsResolutionSuccess : Bool
  handshakeError : String
  error : String
  redirect : Option NetworkRequestCommon
  deriving DecidableEq

structure RawNetworkSample where
  url : String
  startTimestamp : Int
  timestamp : Int
  statusCode : Nat
  error : String
  redirectUrl : String
  /-- Nothing is stored here for a request without redirection. -/
  hasBeenRedirected : Option Bool
  dnsWait : Int
  dnsDuration : Int
  dnsSuccess : Bool
  socketConnectDuration : Int
  handshakeWait : Int
  handshakeDuration : Int
  handshakeError : String
  requestDuration : Int
  responseDuration : Int
  deriving DecidableEq

def isRedirect (statusCode : Nat) : Bool :=
  decide (300 ≤ statusCode ∧ statusCode ≤ 308)

namespace NetworkRequestInfo

def new (url : String) (timestamp : Int) : NetworkRequestInfo where
  toNetworkRequestCommon := .new url timestamp
  dnsResolutionSuccess := false
  handshakeError := ""
  error := ""
  redirect := none

def current (info : NetworkRequestInfo) : NetworkRequestCommon :=
  info.redirect.getD info.toNetworkRequestCommon

def update (info : NetworkRequestInfo) (change : NetworkRequestCommon → NetworkRequestCommon) :
    NetworkRequestInfo :=
  match info.redirect with
  | none => { info with toNetworkRequestCommon := change info.toNetworkRequestCommon }
  | some redirect => { info with redirect := some (change redirect) }

/-! ## The handlers -/

def onRequestFailed (info : NetworkRequestInfo) (message : String) : NetworkRequestInfo :=
  { info with error := message }

def onRedirect (info : NetworkRequestInfo) (redirectUrl : String) : NetworkRequestInfo :=
  { info with
    redirect := info.redirect.map fun redirect =>
      { redirect with
        url := if redirect.url.isEmpty then redirectUrl
          else redirect.url ++ (" | " ++ redirectUrl) } }

def onDnsResolutionStart (info : NetworkRequestInfo) (timestamp : Int) : NetworkRequestInfo :=
  info.update fun record => { record with dnsStartTime := timestamp }

/-- The part of `OnDnsResolutionStop` which is the same for both records. -/
def stopDns (timestamp : Int) (record : NetworkRequestCommon) : NetworkRequestCommon :=
  { record with
    dnsDuration := timestamp - record.dnsStartTime
    dnsWait := record.dnsStartTime - record.startTimestamp }

def onDnsResolutionStop (info : NetworkRequestInfo) (timestamp : Int) (success : Bool) :
    NetworkRequestInfo :=
  { info.update (stopDns timestamp) with dnsResolutionSuccess := success }

def onConnectStart (info : NetworkRequestInfo) (timestamp : Int) : NetworkRequestInfo :=
  info.update fun record => { record with socketConnectStartTime := timestamp }

def onConnectStop (info : NetworkRequestInfo) (timestamp : Int) : NetworkRequestInfo :=
  info.update fun record =>
    { record with socketDuration := timestamp - record.socketConnectStartTime }

def onConnectFailed (info : NetworkRequestInfo) (timestamp : Int) (message : String) :
    NetworkRequestInfo :=
  { info.onConnectStop timestamp with error := message }

def onRequestHeaderStart (info : NetworkRequestInfo) (timestamp : Int) : NetworkRequestInfo :=
  info.update fun record => { record with requestHeadersStartTimestamp := timestamp }

/-- The duration of the request itself is the one which redirections add to. -/
def onResponseHeaderStop (info : NetworkRequestInfo) (timestamp : Int) (statusCode : Nat) :
    NetworkRequestInfo :=
  match info.redirect with
  | none =>
    { info with
      requestDuration := timestamp - info.requestHeadersStartTimestamp
      redirect := if isRedirect statusCode then some (.new "" timestamp) else none }
  | some redirect =>
    { info with
      redirect := some { redirect with
        requestDuration := redirect.requestDuration +
          (timestamp - redirect.requestHeadersStartTimestamp) } }

def onResponseContentStart (info : NetworkRequestInfo) (timestamp : Int) : NetworkRequestInfo :=
  info.update fun record => { record with responseContentStartTimestamp := timestamp }

def onResponseContentStop (info : NetworkRequestInfo) (timestamp : Int) : NetworkRequestInfo :=
  info.update fun record =>
    { record with responseDuration := timestamp - record.responseContentStartTimestamp }

def onHandshakeStart (info : NetworkRequestInfo) (timestamp : Int) : NetworkRequestInfo :=
  info.update fun record => { record with handshakeStartTime := timestamp }

/-- The duration goes to the first record whichever is in use. -/
def updateHandshakeDuration (info : NetworkRequestInfo) (timestamp : Int) : NetworkRequestInfo :=
  { info with handshakeDuration := timestamp - info.current.handshakeStartTime }

def updateHandshakeWait (info : NetworkRequestInfo) : NetworkRequestInfo :=
  info.update fun record =>
    { record with
      handshakeWait :=
        if record.socketConnectStartTime ≠ 0 then
          record.handshakeStartTime - (record.socketConnectStartTime + record.socketDuration)
        else if record.dnsStartTime ≠ 0 then
          record.handshakeStartTime - (record.dnsStartTime + record.dnsDuration)
        else record.handshakeStartTime - record.startTimestamp }

def onHandshakeStop (info : NetworkRequestInfo) (timestamp : Int) : NetworkRequestInfo :=
  (info.updateHandshakeDuration timestamp).updateHandshakeWait

def onHandshakeFailed (info : NetworkRequestInfo) (timestamp : Int) (message : String) :
    NetworkRequestInfo :=
  { info.onHandshakeStop timestamp with handshakeError := message }

def rawSample (info : NetworkRequestInfo) (timestamp : Int) (statusCode : Nat) :
    RawNetworkSample where
  url := info.url
  startTimestamp := info.startTimestamp
  timestamp
  statusCode
  error := info.error
  redirectUrl := info.redirect.elim "" (·.url)
  hasBeenRedirected := info.redirect.map fun _ => true
  dnsWait := info.dnsWait + info.redirect.elim 0 (·.dnsWait)
  dnsDuration := info.dnsDuration + info.redirect.elim 0 (·.dnsDuration)
  dnsSuccess := info.dnsResolutionSuccess
  socketConnectDuration := info.socketDuration + info.redirect.elim 0 (·.socketDuration)
  handshakeWait := info.handshakeWait + info.redirect.elim 0 (·.handshakeWait)
  handshakeDuration := info.handshakeDuration + info.redirect.elim 0 (·.handshakeDuration)
  handshakeError := info.handshakeError
  requestDuration := info.requestDuration + info.redirect.elim 0 (·.requestDuration)
  responseDuration := info.responseDuration + info.redirect.elim 0 (·.responseDuration)

end NetworkRequestInfo

inductive Report where
  | requestFailed (message : String)
  | redirect (redirectUrl : String)
  | dnsResolutionStart
  | dnsResolutionStop (success : Bool)
  | connectStart
  | connectStop
  | connectFailed (message : String)
  | handshakeStart
  | handshakeStop
  | handshakeFailed (message : String)
  | requestHeaderStart
  | responseHeaderStop (statusCode : Nat)
  | responseContentStart
  | responseContentStop
  deriving DecidableEq

def NetworkRequestInfo.handle (info : NetworkRequestInfo) (timestamp : Int) :
    Report → NetworkRequestInfo
  | .requestFailed message => info.onRequestFailed message
  | .redirect redirectUrl => info.onRedirect redirectUrl
  | .dnsResolutionStart => info.onDnsResolutionStart timestamp
  | .dnsResolutionStop success => info.onDnsResolutionStop timestamp success
  | .connectStart => info.onConnectStart timestamp
  | .connectStop => info.onConnectStop timestamp
  | .connectFailed message => info.onConnectFailed timestamp message
  | .handshakeStart => info.onHandshakeStart timestamp
  | .handshakeStop => info.onHandshakeStop timestamp
  | .handshakeFailed message => info.onHandshakeFailed timestamp message
  | .requestHeaderStart => info.onRequestHeaderStart timestamp
  | .responseHeaderStop statusCode => info.onResponseHeaderStop timestamp statusCode
  | .responseContentStart => info.onResponseContentStart timestamp
  | .responseContentStop => info.onResponseContentStop timestamp

structure Configuration where
  forceHttpSampling : Bool
  requestDurationThreshold : Int

/-- The sample of `OnRequestStop`, unless the request was too short. -/
def NetworkRequestInfo.onRequestStop (config : Configuration) (info : NetworkRequestInfo)
    (timestamp : Int) (statusCode : Nat) : Option RawNetworkSample :=
  if config.forceHttpSampling = false ∧
      timestamp - info.startTimestamp < config.requestDurationThreshold then none
  else some (info.rawSample timestamp statusCode)

end Pyroscope.Network
