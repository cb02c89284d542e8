import GuestAgent.Windows.Provider

/-!
# The objects of the credential provider

The credential provider is a COM server.  Its objects are the class factory, the provider and the
credentials.  Each counts the references to itself and deletes itself with the last one, and the DLL
counts its providers and credentials, so that the system knows when it may be unloaded.  References
are held by the system, and by a provider to its credentials and to whoever it tells of new ones.

A run is any sequence of calls that only uses what the caller holds.  What is used after it was
deleted goes down in `dangling`.
-/

set_option autoImplicit false

namespace GuestAgent.Com

open OVirtProvider (UsageScenario)

/-! ## The objects -/

/-- What a call is made on. -/
inductive Object where
  | factory (f : ℕ)
  | provider (i : ℕ)
  | credentials (k : ℕ)
  deriving DecidableEq, Repr

/-- The interfaces somebody may ask for. -/
inductive Riid where
  | iUnknown | iClassFactory | iCredentialProvider | iCredentialProviderCredential | other
  deriving DecidableEq, Repr

/-- What a call returns. -/
inductive HResult where
  | ok | invalidArg | noInterface | outOfMemory | noAggregation | classNotAvailable
  deriving DecidableEq, Repr

/-- The objects of the DLL.  The fields of an object are under its number, whether it is still there
or not. -/
structure Dll where
  /-- The objects that were constructed and not deleted. -/
  factories : List ℕ
  providers : List ℕ
  credentials : List ℕ
  /-- The `_cRef` of each. -/
  factoryRef : ℕ → Int
  providerRef : ℕ → Int
  credentialsRef : ℕ → Int
  pOVirtCredentials : ℕ → Option ℕ
  pCredentialsChannel : ℕ → Bool
  pCredentialProviderEvents : ℕ → Option ℕ
  /-- For each object of somebody else's, how often it was told `AddRef` without `Release`. -/
  eventsRef : ℕ → Int
  g_nRefCount : Int
  /-- The number of the next object. -/
  next : ℕ
  /-- What was used when it was deleted. -/
  dangling : List Object

namespace Dll

/-- The DLL when it is loaded. -/
def load : Dll :=
  ⟨[], [], [], fun _ ↦ 0, fun _ ↦ 0, fun _ ↦ 0, fun _ ↦ none, fun _ ↦ false, fun _ ↦ none,
    fun _ ↦ 0, 0, 0, []⟩

def alive (s : Dll) : Object → Bool
  | .factory f => s.factories.contains f
  | .provider i => s.providers.contains i
  | .credentials k => s.credentials.contains k

/-- An object is used. -/
def use (s : Dll) (o : Object) : Dll :=
  if s.alive o then s else { s with dangling := o :: s.dangling }

def dllAddRef (s : Dll) : Dll := { s with g_nRefCount := s.g_nRefCount + 1 }

def dllRelease (s : Dll) : Dll := { s with g_nRefCount := s.g_nRefCount - 1 }

/-- `DllCanUnloadNow`, as a number: `S_OK` is 0. -/
def dllCanUnloadNow (s : Dll) : ℕ := if s.g_nRefCount ≤ 0 then 1 else 0

/-! ### The credentials -/

/-- `OVirtCredentials()`, and its number is `next`. -/
def newCredentials (s : Dll) : Dll :=
  dllAddRef { s with
    credentials := s.next :: s.credentials
    credentialsRef := Function.update s.credentialsRef s.next 1
    next := s.next + 1 }

/-- `~OVirtCredentials`. -/
def deleteCredentials (s : Dll) (k : ℕ) : Dll :=
  dllRelease { s with credentials := s.credentials.erase k }

def credentialsAddRef (s : Dll) (k : ℕ) : Dll :=
  let s := s.use (.credentials k)
  { s with credentialsRef := Function.update s.credentialsRef k (s.credentialsRef k + 1) }

def credentialsRelease (s : Dll) (k : ℕ) : Dll :=
  let s := s.use (.credentials k)
  let cRef := s.credentialsRef k - 1
  let s := { s with credentialsRef := Function.update s.credentialsRef k cRef }
  if cRef = 0 then s.deleteCredentials k else s

/-- `QueryInterface`, with somewhere to put the pointer, or not. -/
def credentialsQueryInterface (s : Dll) (k : ℕ) (riid : Riid) (ppv : Bool) : HResult × Dll :=
  let s := s.use (.credentials k)
  if ppv then
    if riid = .iUnknown ∨ riid = .iCredentialProviderCredential then
      (.ok, s.credentialsAddRef k)
    else (.noInterface, s)
  else (.invalidArg, s)

/-! ### The provider -/

def eventsAddRef (s : Dll) (e : ℕ) : Dll :=
  { s with eventsRef := Function.update s.eventsRef e (s.eventsRef e + 1) }

def eventsRelease (s : Dll) (e : ℕ) : Dll :=
  { s with eventsRef := Function.update s.eventsRef e (s.eventsRef e - 1) }

def setCredentials (s : Dll) (i : ℕ) (k : Option ℕ) : Dll :=
  { s with pOVirtCredentials := Function.update s.pOVirtCredentials i k }

def setChannel (s : Dll) (i : ℕ) (b : Bool) : Dll :=
  { s with pCredentialsChannel := Function.update s.pCredentialsChannel i b }

def setEvents (s : Dll) (i : ℕ) (e : Option ℕ) : Dll :=
  { s with pCredentialProviderEvents := Function.update s.pCredentialProviderEvents i e }

/-- `OVirtProvider()`, and its number is `next`. -/
def newProvider (s : Dll) : Dll :=
  dllAddRef { s with
    providers := s.next :: s.providers
    providerRef := Function.update s.providerRef s.next 1
    pOVirtCredentials := Function.update s.pOVirtCredentials s.next none
    pCredentialsChannel := Function.update s.pCredentialsChannel s.next false
    pCredentialProviderEvents := Function.update s.pCredentialProviderEvents s.next none
    next := s.next + 1 }

/-- `_pOVirtCredentials->Release(); _pOVirtCredentials = NULL;`, if it is not `NULL`. -/
def releaseCredentials (s : Dll) (i : ℕ) : Dll :=
  match s.pOVirtCredentials i with
  | some k => (s.credentialsRelease k).setCredentials i none
  | none => s

/-- The same with `_pCredentialProviderEvents`, and this is all there is to `UnAdvise`. -/
def releaseEvents (s : Dll) (i : ℕ) : Dll :=
  match s.pCredentialProviderEvents i with
  | some e => (s.eventsRelease e).setEvents i none
  | none => s

/-- `~OVirtProvider`. -/
def deleteProvider (s : Dll) (i : ℕ) : Dll :=
  let s := (((s.setChannel i false).releaseCredentials i).releaseEvents i)
  dllRelease { s with providers := s.providers.erase i }

def providerAddRef (s : Dll) (i : ℕ) : Dll :=
  let s := s.use (.provider i)
  { s with providerRef := Function.update s.providerRef i (s.providerRef i + 1) }

def providerRelease (s : Dll) (i : ℕ) : Dll :=
  let s := s.use (.provider i)
  let cRef := s.providerRef i - 1
  let s := { s with providerRef := Function.update s.providerRef i cRef }
  if cRef = 0 then s.deleteProvider i else s

def providerQueryInterface (s : Dll) (i : ℕ) (riid : Riid) (ppv : Bool) : HResult × Dll :=
  let s := s.use (.provider i)
  if ppv then
    if riid = .iUnknown ∨ riid = .iCredentialProvider then (.ok, s.providerAddRef i)
    else (.noInterface, s)
  else (.invalidArg, s)

/-- What `SetUsageScenario` creates if there is neither credentials nor a channel.  Either `new` may
fail. -/
def createMembers (s : Dll) (i : ℕ) (credentials channel : Bool) : Dll :=
  if s.pOVirtCredentials i = none ∧ s.pCredentialsChannel i = false then
    if credentials then
      let s' := s.newCredentials.setCredentials i (some s.next)
      if channel then s'.setChannel i true
      else (s'.credentialsRelease s.next).setCredentials i none
    else s
  else s

/-- `SetUsageScenario`, as far as the objects go. -/
def setUsageScenario (s : Dll) (i : ℕ) (cpus : UsageScenario) (credentials channel : Bool) : Dll :=
  let s := s.use (.provider i)
  if cpus = .logon ∨ cpus = .unlockWorkstation then
    let s := s.createMembers i credentials channel
    match s.pOVirtCredentials i with
    | some k => s.use (.credentials k)
    | none => s
  else s

def advise (s : Dll) (i e : ℕ) : Dll :=
  let s := s.use (.provider i)
  let s := match s.pCredentialProviderEvents i with
    | some e' => s.eventsRelease e'
    | none => s
  (s.setEvents i (some e)).eventsAddRef e

def unAdvise (s : Dll) (i : ℕ) : Dll := (s.use (.provider i)).releaseEvents i

/-- `GetCredentialAt`: the pointer, if there is one, is to the credentials. -/
def getCredentialAt (s : Dll) (i dwIndex : ℕ) (ppcpc : Bool) : HResult × Dll :=
  let s := s.use (.provider i)
  match s.pOVirtCredentials i with
  | some k =>
    if dwIndex < 1 ∧ ppcpc then s.credentialsQueryInterface k .iCredentialProviderCredential true
    else (.invalidArg, s)
  | none => (.invalidArg, s)

/-! ### The class factory -/

/-- `return _cRef++`. -/
def factoryAddRef (s : Dll) (f : ℕ) : Dll :=
  let s := s.use (.factory f)
  { s with factoryRef := Function.update s.factoryRef f (s.factoryRef f + 1) }

/-- `LONG cRef = _cRef--; if (!cRef) delete this;` -/
def factoryRelease (s : Dll) (f : ℕ) : Dll :=
  let s := s.use (.factory f)
  let cRef := s.factoryRef f
  let s := { s with factoryRef := Function.update s.factoryRef f (cRef - 1) }
  if cRef = 0 then { s with factories := s.factories.erase f } else s

def factoryQueryInterface (s : Dll) (f : ℕ) (riid : Riid) (ppv : Bool) : HResult × Dll :=
  let s := s.use (.factory f)
  if ppv then
    if riid = .iClassFactory ∨ riid = .iUnknown then (.ok, s.factoryAddRef f)
    else (.noInterface, s)
  else (.invalidArg, s)

/-- `CClassFactory()`, and its number is `next`. -/
def newFactory (s : Dll) : Dll :=
  { s with
    factories := s.next :: s.factories
    factoryRef := Function.update s.factoryRef s.next 1
    next := s.next + 1 }

/-- `DllGetClassObject`, for this class or another one. -/
def dllGetClassObject (s : Dll) (rclsid allocates : Bool) (riid : Riid) (ppv : Bool) :
    HResult × Dll :=
  if rclsid then
    if allocates then
      let (hr, s') := s.newFactory.factoryQueryInterface s.next riid ppv
      (hr, s'.factoryRelease s.next)
    else (.outOfMemory, s)
  else (.classNotAvailable, s)

/-- `OVirtCredProv_CreateInstance`. -/
def oVirtCredProv_CreateInstance (s : Dll) (allocates : Bool) (riid : Riid) (ppv : Bool) :
    HResult × Dll :=
  if allocates then
    let (hr, s') := s.newProvider.providerQueryInterface s.next riid ppv
    (hr, s'.providerRelease s.next)
  else (.outOfMemory, s)

/-- `CreateInstance`. -/
def createInstance (s : Dll) (f : ℕ) (pUnkOuter allocates : Bool) (riid : Riid) (ppv : Bool) :
    HResult × Dll :=
  let s := s.use (.factory f)
  if pUnkOuter then (.noAggregation, s)
  else s.oVirtCredProv_CreateInstance allocates riid ppv

def lockServer (s : Dll) (f : ℕ) (bLock : Bool) : Dll :=
  let s := s.use (.factory f)
  if bLock then s.dllAddRef else s.dllRelease

end Dll

/-! ## Whoever calls -/

/-- The references that are not in a field, and how often the server is locked. -/
structure Client where
  factory : ℕ → ℕ
  provider : ℕ → ℕ
  credentials : ℕ → ℕ
  locks : ℕ

namespace Client

def start : Client := ⟨fun _ ↦ 0, fun _ ↦ 0, fun _ ↦ 0, 0⟩

/-- The references to an object. -/
def held (c : Client) : Object → ℕ
  | .factory f => c.factory f
  | .provider i => c.provider i
  | .credentials k => c.credentials k

def set (c : Client) (o : Object) (n : ℕ) : Client :=
  match o with
  | .factory f => { c with factory := Function.update c.factory f n }
  | .provider i => { c with provider := Function.update c.provider i n }
  | .credentials k => { c with credentials := Function.update c.credentials k n }

/-- One more reference, or as many as before if there is none. -/
def take (c : Client) (o : Object) (hr : HResult) : Client :=
  if hr = .ok then c.set o (c.held o + 1) else c

def drop (c : Client) (o : Object) : Client := c.set o (c.held o - 1)

end Client

/-- The calls, with what the system gives them: whether there is memory. -/
inductive Call where
  | getClassObject (rclsid allocates : Bool) (riid : Riid) (ppv : Bool)
  | addRef (o : Object)
  | release (o : Object)
  | queryInterface (o : Object) (riid : Riid) (ppv : Bool)
  | createInstance (f : ℕ) (pUnkOuter allocates : Bool) (riid : Riid) (ppv : Bool)
  | lockServer (f : ℕ) (bLock : Bool)
  | setUsageScenario (i : ℕ) (cpus : UsageScenario) (credentials channel : Bool)
  | advise (i e : ℕ)
  | unAdvise (i : ℕ)
  | getCredentialAt (i dwIndex : ℕ) (ppcpc : Bool)
  deriving DecidableEq, Repr

/-- A call is made by somebody who holds what it is made on, and who unlocks has locked. -/
def Call.allowed (c : Client) : Call → Bool
  | getClassObject .. => true
  | addRef o | release o | queryInterface o .. => 0 < c.held o
  | createInstance f .. => 0 < c.factory f
  | lockServer f bLock => 0 < c.factory f && (bLock || 0 < c.locks)
  | setUsageScenario i .. | advise i _ | unAdvise i | getCredentialAt i .. => 0 < c.provider i

namespace Dll

def addRef (s : Dll) : Object → Dll
  | .factory f => s.factoryAddRef f
  | .provider i => s.providerAddRef i
  | .credentials k => s.credentialsAddRef k

def release (s : Dll) : Object → Dll
  | .factory f => s.factoryRelease f
  | .provider i => s.providerRelease i
  | .credentials k => s.credentialsRelease k

def queryInterface (s : Dll) (o : Object) (riid : Riid) (ppv : Bool) : HResult × Dll :=
  match o with
  | .factory f => s.factoryQueryInterface f riid ppv
  | .provider i => s.providerQueryInterface i riid ppv
  | .credentials k => s.credentialsQueryInterface k riid ppv

end Dll

/-- A call, and what its caller holds then. -/
def call (x : Dll × Client) : Call → Dll × Client
  | .getClassObject rclsid allocates riid ppv =>
    let (hr, s) := x.1.dllGetClassObject rclsid allocates riid ppv
    (s, x.2.take (.factory x.1.next) hr)
  | .addRef o => (x.1.addRef o, x.2.take o .ok)
  | .release o => (x.1.release o, x.2.drop o)
  | .queryInterface o riid ppv =>
    let (hr, s) := x.1.queryInterface o riid ppv
    (s, x.2.take o hr)
  | .createInstance f pUnkOuter allocates riid ppv =>
    let (hr, s) := x.1.createInstance f pUnkOuter allocates riid ppv
    (s, x.2.take (.provider x.1.next) hr)
  | .lockServer f bLock =>
    (x.1.lockServer f bLock,
      { x.2 with locks := if bLock then x.2.locks + 1 else x.2.locks - 1 })
  | .setUsageScenario i cpus credentials channel =>
    (x.1.setUsageScenario i cpus credentials channel, x.2)
  | .advise i e => (x.1.advise i e, x.2)
  | .unAdvise i => (x.1.unAdvise i, x.2)
  | .getCredentialAt i dwIndex ppcpc =>
    let (hr, s) := x.1.getCredentialAt i dwIndex ppcpc
    match x.1.pOVirtCredentials i with
    | some k => (s, x.2.take (.credentials k) hr)
    | none => (s, x.2)

/-- A call is made if it is allowed. -/
def step (x : Dll × Client) (c : Call) : Dll × Client := if c.allowed x.2 then call x c else x

/-- After some calls. -/
def run (calls : List Call) : Dll × Client := calls.foldl step (Dll.load, Client.start)

end GuestAgent.Com
