import AIEngine.Applications.EmptyUri
import AIEngine.Http.HeaderBlocks

/-!
# The first line of a request

`extract_uri` looks for the version anywhere in the packet, and takes what stands between the method
and that place for the target.
-/

namespace AIEngine

namespace World

/-- The pointer finds a string with these octets. -/
def Refers (w : World) (pointer : Option Obj) (value : Bytes) : Prop :=
  ∃ o, w.lockString .http pointer = some o ∧ w.names o = value

/-- The info refers to a string with these octets. -/
def Holds (w : World) (i : Obj) (x : StringField) (value : Bytes) : Prop :=
  ∃ o, w.lockString .http ((w.infos i).strings x) = some o ∧ w.names o = value

/-- The map has the value under its own key, or the pool has a string for it. -/
def GivesUri (w : World) (i : Obj) (value : Bytes) : Prop :=
  match find (w.maps .http .uri) value with
  | some e => w.names e.object = value
  | none => 0 < (w.httpStrings .uri).total ∨ w.Holds i .uri value

/-- An info with this pointer gets a string with the octets of `name` for the value, or keeps one. -/
def UriBecomes (w : World) (pointer : Option Obj) (value name : Bytes) : Prop :=
  match find (w.maps .http .uri) value with
  | some e => w.names e.object = name
  | none => if 0 < (w.httpStrings .uri).total then value = name else w.Refers pointer name

variable {w w' : World} {i : Obj} {value : Bytes}

theorem attachUri_becomes (h : Http.attachUri w i value = .ok w') (name : Bytes) :
    w'.Holds i .uri name ↔ w.UriBecomes ((w.infos i).strings .uri) value name := by
  have alive := intern_alive h
  unfold Holds UriBecomes
  rw [lockString_congr alive]
  rcases intern_cases h with ⟨never, -, -⟩ | ⟨e, n, found, -, -, rfl⟩ |
    ⟨s, c, acquired, absent, -, rfl⟩ | ⟨c, failed, absent, -, rfl⟩
  · cases never
  · have pointer := setString_same (w.setMap .http .uri (addHits (w.maps .http .uri) value n)) i .uri
      (some e.object)
    have locked := lockString_of_alive (stringAlive_of_find found)
    rw [pointer, locked, found]
    constructor
    · rintro ⟨o, same, name⟩
      obtain rfl := Option.some.inj same
      exact name
    · intro name
      exact ⟨e.object, rfl, name⟩
  · rw [absent]
    simp only
    have room : 0 < (w.httpStrings .uri).total := (Cache.acquire_some acquired).1
    have pointer := setString_same ((w.setCache (.string .http .uri) c).setName s value) i .uri
      (some s)
    have locked := (congrArg (w.lockString .http) pointer).trans
      (lockString_of_alive (stringAlive_of_acquire acquired))
    have named : ((((w.setCache (.string .http .uri) c).setName s value).setString i .uri
        (some s)).setMap .http .uri (insert (w.maps .http .uri)
          { key := cString value, object := s, hits := 1 })).names s = value := by
      simp [setMap, setString, setInfo, setName]
    rw [if_pos room]
    constructor
    · rintro ⟨o, same, name⟩
      obtain rfl := Option.some.inj (locked.symm.trans same)
      exact named.symm.trans name
    · rintro rfl
      exact ⟨s, locked, named⟩
  · obtain ⟨empty, -⟩ := acquire_empty failed
    rw [absent, setCache_infos, setCache_names]
    simp only
    rw [if_neg (by omega)]
    exact Iff.rfl

theorem attachUri_holds (h : Http.attachUri w i value = .ok w') :
    w'.Holds i .uri value ↔ w.GivesUri i value := by
  rw [attachUri_becomes h]
  unfold UriBecomes GivesUri
  cases find (w.maps .http .uri) value with
  | some e => exact Iff.rfl
  | none =>
    simp only
    by_cases room : 0 < (w.httpStrings .uri).total
    · rw [if_pos room]
      exact iff_of_true trivial (Or.inl room)
    · rw [if_neg room]
      exact ⟨Or.inr, fun either => either.resolve_left room⟩

end World

namespace HTTPProtocol

open World HTTPHeader

/-- A method, a target and a version. -/
structure RequestLine where
  method : Bytes
  target : Bytes
  /-- what stands behind `HTTP/1.` -/
  minor : BitVec 8
  registered : method ∈ methods
  filled : target ≠ []
  unspaced : 0x20 ∉ target

def marker : Bytes := Octets.ascii "HTTP/1."

def RequestLine.octets (r : RequestLine) : Bytes :=
  r.method ++ 0x20 :: (r.target ++ 0x20 :: (marker ++ r.minor :: crlf))

/-! ### The method -/

theorem methods_apart : ∀ m ∈ methods, ∀ m' ∈ methods, m'.isPrefixOf m = true → m' = m := by
  decide +kernel

theorem method_plain : ∀ m ∈ methods, m.isPrefixOf marker = false ∧ 0x2f ∉ m := by
  decide +kernel

theorem method_not_marker {m : Bytes} (registered : m ∈ methods) : ¬marker <:+: m := fun inside =>
  (method_plain m registered).2 (inside.subset (by decide))

variable {s t : HTTPProtocol} {i : Obj} {p : HttpPacket} {m : Bytes}

theorem startsWith_iff {text : Bytes} : p.startsWith text = true ↔ text <+: p.payload ++ p.beyond :=
  List.isPrefixOf_iff_prefix

theorem method_found (registered : m ∈ methods) (starts : m <+: p.payload) :
    p.startsWith (Octets.ascii "HTTP/1") = false ∧ methods.find? p.startsWith = some m := by
  have first : m <+: p.payload ++ p.beyond := starts.trans (List.prefix_append _ _)
  obtain ⟨notPart, unslashed⟩ := method_plain m registered
  constructor
  · refine Bool.eq_false_iff.mpr fun response => ?_
    rcases List.prefix_or_prefix_of_prefix first (startsWith_iff.mp response) with inside | inside
    · have part : m <+: marker := inside.trans (by decide)
      exact absurd (List.isPrefixOf_iff_prefix.mpr part) (by simp [notPart])
    · exact unslashed (inside.subset (by decide))
  · cases found : methods.find? p.startsWith with
    | none =>
      have missed := List.find?_eq_none.mp found m registered
      exact absurd (startsWith_iff.mpr first) missed
    | some m' =>
      have member := List.mem_of_find?_eq_some found
      have also := startsWith_iff.mp (List.find?_some found)
      rcases List.prefix_or_prefix_of_prefix first also with inside | inside
      · rw [methods_apart m' member m registered (List.isPrefixOf_iff_prefix.mpr inside)]
      · rw [methods_apart m registered m' member (List.isPrefixOf_iff_prefix.mpr inside)]

/-! ### The version -/

theorem space_marker : (0x20 : BitVec 8) ∉ marker := by decide

theorem marker_filled : marker ≠ [] := by decide

/-- Where the version is found. -/
theorem find_target (r : RequestLine) (rest : Bytes) :
    Octets.find marker (r.octets ++ rest) =
      match Octets.find marker r.target with
      | some k => some (r.method.length + 1 + k)
      | none => some (r.method.length + 1 + (r.target.length + 1)) := by
  have split : r.octets ++ rest = r.method ++ 0x20 :: (r.target ++
      0x20 :: (marker ++ r.minor :: (crlf ++ rest))) := by
    simp [RequestLine.octets]
  rw [split, Octets.find_skip _ _ space_marker marker_filled (method_not_marker r.registered)]
  cases found : Octets.find marker r.target with
  | some k =>
    rw [Octets.find_append _ found]
    simp only [Option.map_some, Option.some.injEq]
    omega
  | none =>
    have clear := (Octets.find_eq_none r.target marker_filled).mp found
    rw [Octets.find_skip _ _ space_marker marker_filled clear, Octets.find_start]
    simp only [Option.map_some, Option.some.injEq]
    omega

/-- What `extract_uri` does with a request that has a version somewhere. -/
theorem extractUri_version {k : Nat} (registered : m ∈ methods) (starts : m <+: p.payload)
    (version : Octets.find marker p.payload = some k) :
    ∃ uri, substr p.payload (m.length + 1) ((k : Int) - (m.length + 1 : Nat) - 1) = .ok uri ∧
      s.extractUri i p =
        match (s.incTotalRequests i).onWorld (World.Http.attachUri s.world i uri) with
        | .ok s => .ok (k + 10, s)
        | .error e => .error e := by
  obtain ⟨request, found⟩ := method_found registered starts
  have positive : k ≠ 0 := by
    rintro rfl
    have here := List.isPrefixOf_iff_prefix.mp (Octets.find_isPrefixOf version)
    obtain ⟨notPart, -⟩ := method_plain m registered
    rcases List.prefix_or_prefix_of_prefix starts here with inside | inside
    · exact absurd (List.isPrefixOf_iff_prefix.mpr inside) (by simp [notPart])
    · exact method_not_marker registered inside.isInfix
  obtain ⟨k, rfl⟩ := Nat.exists_eq_succ_of_ne_zero positive
  have short := method_length registered
  have bound := Octets.find_le version
  have seven : marker.length = 7 := by decide
  have inside : m.length + 1 ≤ p.payload.length := by omega
  have cut := Octets.substr_of_le inside ((k + 1 : Nat) - (m.length + 1 : Nat) - 1)
  generalize (if 0 ≤ (((k + 1 : Nat) : Int) - (m.length + 1 : Nat) - 1) then _ else _) = uri at cut
  refine ⟨uri, by simp only [substr, cut], ?_⟩
  unfold extractUri
  rw [if_neg (by simp [request]), found]
  simp only
  rw [show Octets.find (Octets.ascii "HTTP/1.") p.payload = some (k + 1) from version]
  simp only [substr]
  rw [show ((k : Int) + 1 - (m.length + 1 : Nat) - 1) = ((k + 1 : Nat) : Int) - (m.length + 1 : Nat) - 1
    by push_cast; rfl, cut]
  rfl

theorem extractUri_versionless (registered : m ∈ methods) (starts : m <+: p.payload)
    (absent : ¬marker <:+: p.payload) : s.extractUri i p = .ok (0, s) := by
  obtain ⟨request, found⟩ := method_found registered starts
  have none : Octets.find (Octets.ascii "HTTP/1.") p.payload = none :=
    (Octets.find_eq_none p.payload marker_filled).mpr absent
  unfold extractUri
  rw [if_neg (by simp [request]), found]
  simp only
  rw [none]

/-! ### The target -/

/-- The uri of the info is the target, and the header starts right behind the line. -/
def ReadsTarget (s : HTTPProtocol) (i : Obj) (p : HttpPacket) (r : RequestLine) : Prop :=
  ∃ t, s.extractUri i p = .ok (r.octets.length, t) ∧ t.world.Holds i .uri r.target

theorem length_octets (r : RequestLine) :
    r.octets.length = r.method.length + 1 + (r.target.length + 1) + 10 := by
  simp only [RequestLine.octets, List.length_append, List.length_cons]
  show _ + (_ + (7 + (2 + 1) + 1) + 1) = _
  omega

theorem reads_target_iff {r : RequestLine} (rest : Bytes) (stocked : s.world.Stocked)
    (payload : p.payload = r.octets ++ rest) :
    s.ReadsTarget i p r ↔ ¬marker <:+: r.target ∧ s.world.GivesUri i r.target := by
  have starts : r.method <+: p.payload := by
    rw [payload, RequestLine.octets, List.append_assoc]
    exact List.prefix_append _ _
  have place := find_target r rest
  rw [← payload] at place
  unfold ReadsTarget
  rw [length_octets, ← Octets.find_eq_none r.target marker_filled]
  cases found : Octets.find marker r.target with
  | some k =>
    have bound := Octets.find_le found
    have seven : marker.length = 7 := by decide
    rw [found] at place
    obtain ⟨uri, -, extracted⟩ := extractUri_version (s := s) (i := i) r.registered starts place
    refine iff_of_false ?_ fun both => absurd both.1 (by simp)
    rintro ⟨t, reads, -⟩
    rw [extracted] at reads
    split at reads
    · have offset := (Prod.mk.inj (Except.ok.inj reads)).1
      omega
    · exact absurd reads (by simp)
  | none =>
    rw [found] at place
    obtain ⟨uri, cut, extracted⟩ := extractUri_version (s := s) (i := i) r.registered starts place
    have same : uri = r.target := by
      have split : p.payload = (r.method ++ [0x20]) ++ (r.target ++
          (0x20 :: (marker ++ r.minor :: (crlf ++ rest)))) := by
        rw [payload]
        simp [RequestLine.octets]
      have inside : r.method.length + 1 ≤ p.payload.length := by
        rw [split, List.length_append, List.length_append]
        exact Nat.le_add_right _ _
      have count : ((r.method.length + 1 + (r.target.length + 1) : Nat) : Int) -
          (r.method.length + 1 : Nat) - 1 = (r.target.length : Nat) := by omega
      rw [count, substr, Octets.substr_of_le inside, if_pos (Int.natCast_nonneg _), split,
        show r.method.length + 1 = (r.method ++ [0x20]).length by simp, List.drop_left,
        Int.toNat_natCast, List.take_left] at cut
      exact (Except.ok.inj cut).symm
    obtain ⟨w, attached, -⟩ := World.intern_stocked .uri true false i r.target stocked
    have holds := attachUri_holds (show World.Http.attachUri s.world i r.target = .ok w from attached)
    have ran : World.Http.attachUri s.world i r.target = .ok w := attached
    rw [extracted, same, ran, ← holds]
    constructor
    · rintro ⟨t, reads, held⟩
      obtain ⟨-, rfl⟩ := Prod.mk.inj (Except.ok.inj reads)
      exact ⟨rfl, held⟩
    · rintro ⟨-, held⟩
      exact ⟨{ s.incTotalRequests i with world := w }, rfl, held⟩

/-! ### A line without a target or without a version -/

/-- Up to the first line end. -/
def firstLine (payload : Bytes) : Bytes :=
  match Octets.find crlf payload with
  | some k => payload.take k
  | none => payload

/-- The line does not go on with a target and a version. -/
def Incomplete (m line : Bytes) : Prop :=
  ¬∃ target tail, target ≠ [] ∧ 0x20 ∉ target ∧
    line = m ++ 0x20 :: (target ++ 0x20 :: (marker ++ tail))

/-- The packet changes the uri of no info, whatever went before. -/
def AttachesNothing (p : HttpPacket) : Prop :=
  ∀ objects layer events s, Transition.run step (start objects layer) events = some s →
    ∀ i offset t, s.extractUri i p = .ok (offset, t) →
      (t.world.infos i).strings .uri = (s.world.infos i).strings .uri

theorem attaches_nothing_iff (registered : m ∈ methods) (starts : m <+: p.payload) :
    AttachesNothing p ↔ ¬marker <:+: p.payload := by
  constructor
  · intro nothing
    rw [← Octets.find_eq_none p.payload marker_filled]
    cases version : Octets.find marker p.payload with
    | none => rfl
    | some k =>
      let first := start (fun _ => 1) none
      have stocked : first.world.Stocked := World.stocked_start _ _
      obtain ⟨uri, -, extracted⟩ :=
        extractUri_version (s := first) (i := ⟨.info .http, 0⟩) registered starts version
      obtain ⟨w, attached, -⟩ :=
        World.intern_stocked .uri true false ⟨.info .http, 0⟩ uri stocked
      have holds := attachUri_holds
        (show World.Http.attachUri first.world ⟨.info .http, 0⟩ uri = .ok w from attached)
      have gives : first.world.GivesUri ⟨.info .http, 0⟩ uri := Or.inl (by decide)
      have ran : World.Http.attachUri first.world ⟨.info .http, 0⟩ uri = .ok w := attached
      rw [ran] at extracted
      have same := nothing (fun _ => 1) none [] first rfl _ _ _ extracted
      obtain ⟨o, locked, -⟩ := holds.mpr gives
      have pointer := (lockString_some locked).1
      exact absurd (pointer.symm.trans same) (by simp [first, start, World.start])
  · intro absent objects layer events s reached i offset t extracted
    rw [extractUri_versionless registered starts absent] at extracted
    obtain ⟨-, rfl⟩ := Prod.mk.inj (Except.ok.inj extracted)
    rfl

/-- The line of a request is read exactly when its target does not have the version in it and the map
or the pool has a string for it. A line without a target or a version is left alone exactly when no
version stands anywhere in the packet. -/
theorem always_reads_iff (objects : CacheId → Nat) (layer : Option Nat) (events : List Event) :
    Transition.Always step
      (fun s => ∀ i p r rest, p.payload = RequestLine.octets r ++ rest →
        (s.ReadsTarget i p r ↔ ¬marker <:+: r.target ∧ s.world.GivesUri i r.target))
      (start objects layer) events ∧
    ∀ m ∈ methods, ∀ p : HttpPacket, m <+: p.payload → Incomplete m (firstLine p.payload) →
      (AttachesNothing p ↔ ¬marker <:+: p.payload) := by
  constructor
  · have stocked : Transition.Always step (fun s => s.world.Stocked) (start objects layer) events := by
      refine Transition.always_of_inv ?_ (World.stocked_start objects layer)
      intro s e t before stepped
      obtain ⟨es, ran⟩ := step_run stepped
      exact World.stocked_run before ran
    exact Transition.always_mono (fun _ before _ _ _ _ payload => reads_target_iff _ before payload)
      stocked
  · exact fun m registered p starts _ => attaches_nothing_iff registered starts

/-- A target that has a version in it. -/
theorem not_always_reads :
    ¬((∀ objects layer events, Transition.Always step
      (fun s => ∀ i p r rest, p.payload = RequestLine.octets r ++ rest → s.ReadsTarget i p r)
      (start objects layer) events) ∧
    ∀ m ∈ methods, ∀ p : HttpPacket, m <+: p.payload → Incomplete m (firstLine p.payload) →
      AttachesNothing p) := by
  rintro ⟨always, -⟩
  have reads := Transition.always_final (always (fun _ => 1) none []) rfl ⟨.info .http, 0⟩
    { payload := Octets.ascii "GET /HTTP/1.0/x HTTP/1.1\r\n", direction := .forward }
    { method := Octets.ascii "GET", target := Octets.ascii "/HTTP/1.0/x", minor := 0x31
      registered := by decide, filled := by decide, unspaced := by decide } [] (by decide)
  refine ((reads_target_iff [] (World.stocked_start _ _) (by decide)).mp reads).1 ?_
  exact ⟨[0x2f], Octets.ascii "0/x", by decide⟩

end HTTPProtocol

end AIEngine
