import AIEngine.Frequency

/-!
# Pools, maps and flows

The state that the application protocols share: the caches, the maps that intern strings, the
contents of the pooled objects and the flow table. A weak pointer locks while a slot of the cache of
its object, or an entry of a map, still owns the object.
-/

namespace AIEngine

abbrev Bytes := List (BitVec 8)

/-- `getName()`: what a C string shows of the stored bytes. -/
def cString (value : Bytes) : Bytes := value.takeWhile fun b => decide (b ≠ 0)

/-- An entry of a `GenericMapType`. Its key is a `string_ref` into the string of its object: here it is
the text that a search of the map sees. -/
structure MapEntry where
  key : Bytes
  object : Obj
  hits : Int
  deriving DecidableEq, Repr

/-- The members of the info objects that refer to pooled strings, and the ban. -/
structure Info where
  strings : StringField → Option Obj := fun _ => none
  isBanned : Bool := false

def Flow.info (f : Flow) : L7Protocol → Option Obj
  | .http => f.httpInfo
  | .ssl => f.sslInfo
  | .smtp => f.smtpInfo
  | .imap => f.imapInfo
  | .pop => f.popInfo
  | .dns => f.dnsInfo
  | .sip => f.sipInfo
  | .ssdp => f.ssdpInfo
  | .gprs => f.gprsInfo

def Flow.setInfo (f : Flow) (p : L7Protocol) (i : Option Obj) : Flow :=
  match p with
  | .http => { f with httpInfo := i }
  | .ssl => { f with sslInfo := i }
  | .smtp => { f with smtpInfo := i }
  | .imap => { f with imapInfo := i }
  | .pop => { f with popInfo := i }
  | .dns => { f with dnsInfo := i }
  | .sip => { f with sipInfo := i }
  | .ssdp => { f with ssdpInfo := i }
  | .gprs => { f with gprsInfo := i }

structure World where
  caches : CacheId → Cache
  /-- the frequency protocol of each layer, with its two caches -/
  frequency : Nat → FrequencyProtocol
  maps : L7Protocol → StringField → List MapEntry
  /-- the contents of the `StringCache` objects -/
  names : Obj → Bytes
  infos : Obj → Info
  flows : Obj → Flow
  /-- the live flows -/
  table : List Obj
  /-- the layer whose TCP info cache is registered at the `CacheManager` -/
  tcpInfoCache : Option Nat
  /-- the maps with a string that has got another name behind the back of its key -/
  disordered : L7Protocol → StringField → Bool := fun _ _ => false
  /-- what a search sees of the keys of such a map, at one time or another -/
  sight : Nat → MapEntry → Bytes := fun _ e => e.key
  time : Nat := 0

namespace World

def cache (w : World) : CacheId → Cache
  | .frequencies k => (w.frequency k).freqsCache
  | .packetFrequencies k => (w.frequency k).packetFreqsCache
  | id => w.caches id

def setFrequency (w : World) (k : Nat) (p : FrequencyProtocol) : World :=
  { w with frequency := fun j => if j = k then p else w.frequency j }

def setCache (w : World) (id : CacheId) (c : Cache) : World :=
  match id with
  | .frequencies k => w.setFrequency k { w.frequency k with freqsCache := c }
  | .packetFrequencies k => w.setFrequency k { w.frequency k with packetFreqsCache := c }
  | id => { w with caches := fun id' => if id' = id then c else w.caches id' }

def setFlow (w : World) (a : Obj) (f : Flow) : World :=
  { w with flows := fun b => if b = a then f else w.flows b }

def setInfo (w : World) (i : Obj) (info : Info) : World :=
  { w with infos := fun j => if j = i then info else w.infos j }

def setString (w : World) (i : Obj) (x : StringField) (s : Option Obj) : World :=
  w.setInfo i
    { w.infos i with strings := fun y => if y = x then s else (w.infos i).strings y }

/-- Where the searches of a map lead whose keys are no longer in order cannot be told: they may see any
text in the place of a key. -/
def scramble (w : World) (m : List MapEntry) : List MapEntry :=
  m.map fun e => { e with key := w.sight w.time e }

def refersTo (w : World) (p : L7Protocol) (x : StringField) (s : Obj) : Bool :=
  decide (s ∈ (w.maps p x).map MapEntry.object)

/-- The keys of the entries that refer to the string refer to the octets that are written over. -/
def setName (w : World) (s : Obj) (value : Bytes) : World :=
  { w with
    names := fun t => if t = s then value else w.names t
    maps := fun p x => if w.refersTo p x s then w.scramble (w.maps p x) else w.maps p x
    disordered := fun p x => w.disordered p x || w.refersTo p x s
    time := w.time + 1 }

/-- What a map holds after it was changed. -/
def settle (w : World) (p : L7Protocol) (x : StringField) (m : List MapEntry) : List MapEntry :=
  if w.disordered p x then w.scramble m else m

def setMap (w : World) (p : L7Protocol) (x : StringField) (m : List MapEntry) : World :=
  { w with
    maps := fun q y => if q = p ∧ y = x then w.settle p x m else w.maps q y
    time := w.time + 1 }

/-- The octets that keys of disordered maps refer to may have been freed, and anything may be written
there at any time. -/
def overwrite (w : World) (sight : Nat → MapEntry → Bytes) : World :=
  { w with
    sight := sight
    maps := fun p x => { w with sight := sight }.settle p x (w.maps p x)
    time := w.time + 1 }

/-! ### Weak pointers -/

def lockInfo (w : World) (p : L7Protocol) (f : Flow) : Option Obj :=
  (w.cache (.info p)).lock (f.info p)

def stringFields : List StringField := [.uri, .host, .ua, .name, .fromAddr, .toAddr, .via, .userName]

/-- Some cache or some map of the protocol owns the string. -/
def StringAlive (w : World) (p : L7Protocol) (s : Obj) : Prop :=
  ∃ x ∈ stringFields, (w.cache (.string p x)).Owns s ∨ s ∈ (w.maps p x).map MapEntry.object

instance (w : World) (p : L7Protocol) (s : Obj) : Decidable (w.StringAlive p s) :=
  inferInstanceAs (Decidable (∃ x ∈ _, _))

def lockString (w : World) (p : L7Protocol) (s : Option Obj) : Option Obj :=
  s.filter fun s => decide (w.StringAlive p s)

/-! ### The maps -/

def find (m : List MapEntry) (key : Bytes) : Option MapEntry :=
  m.find? fun e => decide (e.key = key)

/-- `std::map::insert` keeps an entry that is already there. -/
def insert (m : List MapEntry) (e : MapEntry) : List MapEntry :=
  if (find m e.key).isSome then m else e :: m

def addHits (m : List MapEntry) (key : Bytes) (n : Int) : List MapEntry :=
  m.map fun e => if e.key = key then { e with hits := e.hits + n } else e

def erase (m : List MapEntry) (key : Bytes) : List MapEntry :=
  m.filter fun e => decide (e.key ≠ key)

/-- One hit less, and no entry without hits. -/
def removeHit (m : List MapEntry) (key : Bytes) : List MapEntry :=
  match find m key with
  | none => m
  | some e => if e.hits - 1 ≤ 0 then erase m key else addHits m key (-1)

/-! ### Attaching objects -/

/-- The info of a flow, acquired from the cache and attached when the flow has none. -/
def attachInfo (w : World) (p : L7Protocol) (a : Obj) : Except Fault (Option Obj × World) :=
  match w.lockInfo p (w.flows a) with
  | some i => .ok (some i, w)
  | none =>
    match (w.cache (.info p)).acquire with
    | .ok (some i, c) =>
      .ok (some i,
        ((w.setCache (.info p) c).setInfo i {}).setFlow a ((w.flows a).setInfo p (some i)))
    | .ok (none, c) => .ok (none, w.setCache (.info p) c)
    | .error e => .error e

/-- A string that is not in the map: it is acquired, attached, and inserted under its name. -/
def internNew (w : World) (p : L7Protocol) (x : StringField) (i : Obj) (value : Bytes) :
    Except Fault World :=
  match (w.cache (.string p x)).acquire with
  | .ok (some s, c) =>
    let w := ((w.setCache (.string p x) c).setName s value).setString i x (some s)
    .ok (w.setMap p x (insert (w.maps p x) { key := cString value, object := s, hits := 1 }))
  | .ok (none, c) => .ok (w.setCache (.string p x) c)
  | .error e => .error e

/-- The shared body of the attach functions. Most of them do nothing when a string is attached; the
ones for a uri attach `always`, and not all of those count the hit on the map. -/
def intern (w : World) (p : L7Protocol) (x : StringField) (always countHit : Bool) (i : Obj)
    (value : Bytes) : Except Fault World :=
  if always = false ∧ (w.lockString p ((w.infos i).strings x)).isSome then .ok w
  else
    match find (w.maps p x) value with
    | none => w.internNew p x i value
    | some e =>
      .ok ((w.setMap p x (addHits (w.maps p x) value (if countHit then 1 else 0))).setString i x
        (some e.object))

namespace Http

def attachHost (w : World) := w.intern .http .host false true
def attachUseragent (w : World) := w.intern .http .ua false true
def attachUri (w : World) := w.intern .http .uri true false

end Http

namespace Ssl

def attachHost (w : World) := w.intern .ssl .host false true

end Ssl

namespace Smtp

def attachFrom (w : World) := w.intern .smtp .fromAddr false true

/-- Part of `handle_cmd_rcpt` in the source. -/
def attachTo (w : World) := w.intern .smtp .toAddr false true

end Smtp

namespace Pop

def attachUserName (w : World) := w.intern .pop .userName false true

end Pop

namespace Imap

def attachUserName (w : World) := w.intern .imap .userName false true

end Imap

namespace Dns

def attachDnsToFlow (w : World) := w.intern .dns .name false true

end Dns

namespace Ssdp

def attachHost (w : World) := w.intern .ssdp .host false true
def attachUri (w : World) := w.intern .ssdp .uri true false

end Ssdp

namespace Sip

def attachFromToFlow (w : World) := w.intern .sip .fromAddr false true
def attachToToFlow (w : World) := w.intern .sip .toAddr false true
def attachViaToFlow (w : World) := w.intern .sip .via false true
def attachUriToFlow (w : World) := w.intern .sip .uri true true

end Sip

/-- The attach function of a protocol for one of its strings. -/
def attachString : L7Protocol → StringField → Option (World → Obj → Bytes → Except Fault World)
  | .http, .host => some Http.attachHost
  | .http, .ua => some Http.attachUseragent
  | .http, .uri => some Http.attachUri
  | .ssl, .host => some Ssl.attachHost
  | .smtp, .fromAddr => some Smtp.attachFrom
  | .smtp, .toAddr => some Smtp.attachTo
  | .pop, .userName => some Pop.attachUserName
  | .imap, .userName => some Imap.attachUserName
  | .dns, .name => some Dns.attachDnsToFlow
  | .ssdp, .host => some Ssdp.attachHost
  | .ssdp, .uri => some Ssdp.attachUri
  | .sip, .fromAddr => some Sip.attachFromToFlow
  | .sip, .toAddr => some Sip.attachToToFlow
  | .sip, .via => some Sip.attachViaToFlow
  | .sip, .uri => some Sip.attachUriToFlow
  | _, _ => none

/-! ### Giving objects back -/

def releaseTo (w : World) (id : CacheId) (s : Option Obj) : World :=
  w.setCache id ((w.cache id).release s)

/-- The string behind a pointer of the info goes to a cache; the pointer may be reset with it. -/
def releaseString (w : World) (p : L7Protocol) (x target : StringField)
    (resetPointer : Bool) (i : Obj) : World :=
  match w.lockString p ((w.infos i).strings x) with
  | none => w
  | some s =>
    let w := if resetPointer then w.setString i x none else w
    w.releaseTo (.string p target) (some s)

def resetStrings (w : World) (i : Obj) : World :=
  w.setInfo i { w.infos i with strings := fun _ => none }

/-- One hit less for the string behind a pointer of the info. -/
def dropHit (w : World) (p : L7Protocol) (x : StringField) (i : Obj) : World :=
  match w.lockString p ((w.infos i).strings x) with
  | none => w
  | some s => w.setMap p x (removeHit (w.maps p x) (cString (w.names s)))

namespace Http

def releaseHttpInfo (w : World) (i : Obj) : World :=
  let w := w.releaseString .http .host .host false i
  let w := w.releaseString .http .ua .ua false i
  let w := w.releaseString .http .uri .uri false i
  w.resetStrings i

def releaseHttpInfoCache (w : World) (i : Obj) : World :=
  let w := w.dropHit .http .ua i
  let w := w.dropHit .http .uri i
  releaseHttpInfo w i

end Http

def Ssl.releaseSslInfo (w : World) (i : Obj) : World :=
  w.releaseString .ssl .host .host false i

def Smtp.releaseSmtpInfo (w : World) (i : Obj) : World :=
  let w := w.releaseString .smtp .fromAddr .fromAddr false i
  let w := w.releaseString .smtp .toAddr .toAddr false i
  w.resetStrings i

def Pop.releasePopInfo (w : World) (i : Obj) : World :=
  let w := w.releaseString .pop .userName .userName false i
  w.resetStrings i

def Imap.releaseImapInfo (w : World) (i : Obj) : World :=
  w.releaseString .imap .userName .userName false i

def Ssdp.releaseSsdpInfo (w : World) (i : Obj) : World :=
  let w := w.releaseString .ssdp .host .host false i
  let w := w.releaseString .ssdp .uri .uri false i
  w.resetStrings i

/-- Part of `DNSProtocol::releaseCache` in the source. -/
def Dns.releaseDnsInfo (w : World) (i : Obj) : World :=
  w.releaseString .dns .name .name true i

/-- Part of `SIPProtocol::releaseCache` in the source, which gives the via to the cache of `to`. -/
def Sip.releaseSipInfo (w : World) (i : Obj) : World :=
  let w := w.releaseString .sip .uri .uri true i
  let w := w.releaseString .sip .fromAddr .fromAddr true i
  let w := w.releaseString .sip .toAddr .toAddr true i
  w.releaseString .sip .via .toAddr true i

/-- What `releaseCache` does to the strings of an info. -/
def releaseStrings (w : World) (p : L7Protocol) (i : Obj) : World :=
  match p with
  | .http => Http.releaseHttpInfo w i
  | .ssl => Ssl.releaseSslInfo w i
  | .smtp => Smtp.releaseSmtpInfo w i
  | .imap => Imap.releaseImapInfo w i
  | .pop => Pop.releasePopInfo w i
  | .dns => Dns.releaseDnsInfo w i
  | .sip => Sip.releaseSipInfo w i
  | .ssdp => Ssdp.releaseSsdpInfo w i
  | .gprs => w

/-- The local pointer to the info at the time of the release: every protocol but GPRS has reset it
before. -/
def releasedInfo (p : L7Protocol) (i : Obj) : Option Obj :=
  match p with
  | .gprs => some i
  | _ => none

/-- One turn of the loop of `releaseCache`. -/
def detach (w : World) (p : L7Protocol) (a : Obj) : World :=
  match w.lockInfo p (w.flows a) with
  | none => w
  | some i =>
    let w := w.releaseStrings p i
    let w := w.setFlow a ((w.flows a).setInfo p none)
    w.releaseTo (.info p) (releasedInfo p i)

/-- An empty map is in order. -/
def clearMaps (w : World) (p : L7Protocol) : World :=
  { w with
    maps := fun q x => if q = p then [] else w.maps q x
    disordered := fun q x => if q = p then false else w.disordered q x }

/-- `releaseCache` of the protocol, over the flow table its manager returns. -/
def releaseCache (w : World) (p : L7Protocol) (ft : List Obj) : World :=
  (ft.foldl (fun w a => w.detach p a) w).clearMaps p

/-! ### `CacheManager::releaseFlow` -/

/-- The nested case analysis: the first protocol whose info is alive gets it back. -/
def releaseFirst (w : World) (f : Flow) : List L7Protocol → World
  | [] => w
  | p :: rest =>
    match w.lockInfo p f with
    | some i => w.releaseTo (.info p) (some i)
    | none => w.releaseFirst f rest

/-- The TCP info goes to the registered cache, whatever layer it came from. It is alive while a slot
of either cache owns it. -/
def releaseTcpInfo (w : World) (f : Flow) : World :=
  match f.tcpInfo, w.tcpInfoCache with
  | some i, some k =>
    if (w.cache i.home).Owns i ∨ (w.cache (.tcpInfo k)).Owns i then
      w.releaseTo (.tcpInfo k) (some i)
    else w
  | _, _ => w

def ipprotoTcp : BitVec 16 := 6

def ipprotoUdp : BitVec 16 := 17

def releaseFlow (w : World) (f : Flow) : World :=
  if f.protocol = ipprotoTcp then
    (w.releaseTcpInfo f).releaseFirst f [.http, .ssl, .smtp, .pop, .imap]
  else
    (w.releaseFirst f [.gprs]).releaseFirst f [.dns, .sip, .ssdp]

/-- A flow leaves the table, by timeout or by TCP close. -/
def endFlow (w : World) (a : Obj) : World :=
  { w.releaseFlow (w.flows a) with table := w.table.erase a }

/-! ### Packets -/

/-- A new flow enters the table; its other fields do not matter here. -/
def openFlow (w : World) (a : Obj) (protocol : BitVec 16) : World :=
  { w.setFlow a { (w.flows a).reset with protocol := protocol } with table := a :: w.table }

/-- A new TCP flow gets a TCP info of its layer. -/
def openTcpFlow (w : World) (a : Obj) (layer : Nat) : Except Fault World :=
  let w := w.openFlow a ipprotoTcp
  match (w.cache (.tcpInfo layer)).acquire with
  | .ok (some i, c) =>
    .ok ((w.setCache (.tcpInfo layer) c).setFlow a { w.flows a with tcpInfo := some i })
  | .ok (none, c) => .ok (w.setCache (.tcpInfo layer) c)
  | .error e => .error e

/-- What the parser of a protocol finds in a packet, as far as pooled objects go. -/
inductive AppAction where
  | string (x : StringField) (value : Bytes)
  | ban
  deriving DecidableEq, Repr

def setBanned (w : World) (i : Obj) : World := w.setInfo i { w.infos i with isBanned := true }

/-- HTTP releases the strings of a banned info, SMTP, POP and IMAP only mark it. -/
def ban (w : World) (p : L7Protocol) (i : Obj) : World :=
  match p with
  | .http => Http.releaseHttpInfoCache (w.setBanned i) i
  | .smtp => w.setBanned i
  | .pop => w.setBanned i
  | .imap => w.setBanned i
  | _ => w

/-- The parsers stop at a ban. -/
def runActions (w : World) (p : L7Protocol) (i : Obj) : List AppAction → Except Fault World
  | [] => .ok w
  | .ban :: _ => .ok (w.ban p i)
  | .string x value :: rest =>
    match attachString p x with
    | none => w.runActions p i rest
    | some attach =>
      match attach w i value with
      | .ok w' => w'.runActions p i rest
      | .error e => .error e

/-- `processFlow` of an application protocol. -/
def processFlow (w : World) (p : L7Protocol) (a : Obj) (actions : List AppAction) :
    Except Fault World :=
  match w.attachInfo p a with
  | .ok (some i, w') => if (w'.infos i).isBanned then .ok w' else w'.runActions p i actions
  | .ok (none, w') => .ok w'
  | .error e => .error e

/-- Before the first packet: caches with some objects each, no flow, nothing interned. -/
def start (objects : CacheId → Nat) (tcpInfoCache : Option Nat) : World where
  caches := fun id => Cache.create { id := id } (objects id)
  frequency := fun k =>
    { freqsCache := Cache.create { id := .frequencies k } (objects (.frequencies k))
      packetFreqsCache :=
        Cache.create { id := .packetFrequencies k } (objects (.packetFrequencies k)) }
  maps := fun _ _ => []
  names := fun _ => []
  infos := fun _ => {}
  flows := fun _ => Flow.new
  table := []
  tcpInfoCache := tcpInfoCache

/-! ### Reading what was written -/

theorem start_cache (objects : CacheId → Nat) (k : Option Nat) (id : CacheId) :
    (start objects k).cache id = Cache.create { id := id } (objects id) := by
  cases id <;> rfl


@[simp] theorem cache_setCache_same (w : World) (id : CacheId) (c : Cache) :
    (w.setCache id c).cache id = c := by
  cases id <;> simp [setCache, cache, setFrequency]

theorem cache_setCache_other {w : World} {id id' : CacheId} {c : Cache} (different : id' ≠ id) :
    (w.setCache id c).cache id' = w.cache id' := by
  cases id with
  | frequencies k =>
    cases id' with
    | frequencies j =>
      have apart : j ≠ k := fun same => different (by rw [same])
      simp [setCache, cache, setFrequency, apart]
    | packetFrequencies j =>
      by_cases same : j = k <;> simp [setCache, cache, setFrequency, same]
    | _ => rfl
  | packetFrequencies k =>
    cases id' with
    | frequencies j =>
      by_cases same : j = k <;> simp [setCache, cache, setFrequency, same]
    | packetFrequencies j =>
      have apart : j ≠ k := fun same => different (by rw [same])
      simp [setCache, cache, setFrequency, apart]
    | _ => rfl
  | _ =>
    cases id' with
    | frequencies j => rfl
    | packetFrequencies j => rfl
    | _ => simp [setCache, cache, different]

@[simp] theorem setCache_maps (w : World) (id : CacheId) (c : Cache) :
    (w.setCache id c).maps = w.maps := by cases id <;> rfl

@[simp] theorem setCache_names (w : World) (id : CacheId) (c : Cache) :
    (w.setCache id c).names = w.names := by cases id <;> rfl

@[simp] theorem setCache_infos (w : World) (id : CacheId) (c : Cache) :
    (w.setCache id c).infos = w.infos := by cases id <;> rfl

@[simp] theorem setCache_flows (w : World) (id : CacheId) (c : Cache) :
    (w.setCache id c).flows = w.flows := by cases id <;> rfl

@[simp] theorem setCache_table (w : World) (id : CacheId) (c : Cache) :
    (w.setCache id c).table = w.table := by cases id <;> rfl

@[simp] theorem setCache_disordered (w : World) (id : CacheId) (c : Cache) :
    (w.setCache id c).disordered = w.disordered := by cases id <;> rfl

@[simp] theorem setFlow_cache (w : World) (a : Obj) (f : Flow) :
    (w.setFlow a f).cache = w.cache := rfl

@[simp] theorem setInfo_cache (w : World) (i : Obj) (info : Info) :
    (w.setInfo i info).cache = w.cache := rfl

@[simp] theorem setString_cache (w : World) (i : Obj) (x : StringField) (s : Option Obj) :
    (w.setString i x s).cache = w.cache := rfl

@[simp] theorem setName_cache (w : World) (s : Obj) (value : Bytes) :
    (w.setName s value).cache = w.cache := rfl

@[simp] theorem setMap_cache (w : World) (p : L7Protocol) (x : StringField) (m : List MapEntry) :
    (w.setMap p x m).cache = w.cache := rfl

/-! ### Keys -/

/-- A search may see other keys; the entries are the same. -/
theorem scramble_objects (w : World) (m : List MapEntry) :
    (w.scramble m).map MapEntry.object = m.map MapEntry.object := by
  rw [scramble, List.map_map]
  rfl

theorem settle_clean {w : World} {p : L7Protocol} {x : StringField} (clean : w.disordered p x = false)
    (m : List MapEntry) : w.settle p x m = m := by
  rw [settle, clean, if_neg (by simp)]

theorem settle_objects (w : World) (p : L7Protocol) (x : StringField) (m : List MapEntry) :
    (w.settle p x m).map MapEntry.object = m.map MapEntry.object := by
  unfold settle
  split
  · exact scramble_objects w m
  · rfl

theorem mem_settle {w : World} {p : L7Protocol} {x : StringField} {m : List MapEntry} {e : MapEntry}
    (member : e ∈ w.settle p x m) : ∃ e₀ ∈ m, e₀.object = e.object ∧ e₀.hits = e.hits := by
  unfold settle at member
  split at member
  · obtain ⟨e₀, old, rfl⟩ := List.mem_map.mp member
    exact ⟨e₀, old, rfl, rfl⟩
  · exact ⟨e, member, rfl, rfl⟩

theorem setName_objects (w : World) (s : Obj) (value : Bytes) (p : L7Protocol) (x : StringField) :
    ((w.setName s value).maps p x).map MapEntry.object = (w.maps p x).map MapEntry.object := by
  unfold setName
  simp only
  split
  · exact scramble_objects w _
  · rfl

theorem unmapped_of_ne {w : World} {s : Obj} {p : L7Protocol} {x : StringField}
    (new : ∀ e ∈ w.maps p x, e.object ≠ s) : s ∉ (w.maps p x).map MapEntry.object := by
  intro listed
  obtain ⟨e, entry, same⟩ := List.mem_map.mp listed
  exact new e entry same

/-- A string that no entry refers to gets its name without consequences. -/
theorem setName_clean {w : World} {s : Obj} {p : L7Protocol} {x : StringField}
    (unmapped : s ∉ (w.maps p x).map MapEntry.object) (value : Bytes) :
    (w.setName s value).maps p x = w.maps p x ∧
      (w.setName s value).disordered p x = w.disordered p x := by
  have none : w.refersTo p x s = false := decide_eq_false unmapped
  constructor
  · show (if w.refersTo p x s then w.scramble (w.maps p x) else w.maps p x) = w.maps p x
    rw [none, if_neg (by simp)]
  · show (w.disordered p x || w.refersTo p x s) = w.disordered p x
    rw [none, Bool.or_false]

theorem mem_setName {w : World} {s : Obj} {value : Bytes} {p : L7Protocol} {x : StringField}
    {e : MapEntry} (member : e ∈ (w.setName s value).maps p x) :
    ∃ e₀ ∈ w.maps p x, e₀.object = e.object ∧ e₀.hits = e.hits := by
  unfold setName at member
  simp only at member
  split at member
  · obtain ⟨e₀, old, rfl⟩ := List.mem_map.mp member
    exact ⟨e₀, old, rfl, rfl⟩
  · exact ⟨e, member, rfl, rfl⟩

theorem overwrite_clean {w : World} {p : L7Protocol} {x : StringField}
    (clean : w.disordered p x = false) (sight : Nat → MapEntry → Bytes) :
    (w.overwrite sight).maps p x = w.maps p x :=
  settle_clean (w := { w with sight := sight }) clean _

theorem overwrite_objects (w : World) (sight : Nat → MapEntry → Bytes) (p : L7Protocol)
    (x : StringField) :
    ((w.overwrite sight).maps p x).map MapEntry.object = (w.maps p x).map MapEntry.object :=
  settle_objects _ p x _

@[simp] theorem clearMaps_cache (w : World) (p : L7Protocol) :
    (w.clearMaps p).cache = w.cache := rfl

@[simp] theorem resetStrings_cache (w : World) (i : Obj) : (w.resetStrings i).cache = w.cache := rfl

end World

end AIEngine
