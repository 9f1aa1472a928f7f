import AIEngine.Reject.ICMPChecksums
import AIEngine.Tcp.Sequences

/-!
# Rejected TCP flows (`RejectManager.cc`)

A rejected flow is reset from both ends with two forged segments. Each stack has its own copy of the
function; the kernel's answer and the counters of the manager are left out.
-/

namespace AIEngine.RejectManager

open Tcp (Side TCPInfo Connection Sent Machine)

/-! ### The segments -/

/-- A forged packet, and the address and port the raw socket is told. -/
structure Forged4 where
  ip : IPv4Header
  tcp : TCPHeader
  endpoint : BitVec 32 × BitVec 16
  deriving DecidableEq, Repr

structure Forged6 where
  ip : IPv6Header
  tcp : TCPHeader
  endpoint : In6Addr × BitVec 16
  deriving DecidableEq, Repr

/-- An RST without a window; the number is set when the flow still has its `TCPInfo`. -/
def reset (sourcePort destinationPort : BitVec 16) (number : Option (BitVec 32)) : TCPHeader :=
  let tcp := ((TCPHeader.new sourcePort destinationPort).setWindowSize 0).setFlagRst true
  match number with
  | some n => tcp.setSequenceNumber n
  | none => tcp

/-- `info->seq_num[k]`, when `tcp_info` has not expired -/
def seqNum (info : Option TCPInfo) (k : Int) : Except Fault (Option (BitVec 32)) :=
  match info with
  | some info => (Tcp.index info.seqNum k).map some
  | none => .ok none

/-- `RejectManager<StackLan>::rejectTCPFlow` -/
def rejectTCPFlow (isOpen : Bool) (flow : Flow) (info : Option TCPInfo) :
    Except Fault (List Forged4) := do
  let src := flow.address.ip4Src
  let dst := flow.address.ip4Dst
  if isOpen then
    let ipDown := (IPv4Header.new TCPHeader.ipprotoTcp dst src).setTotalLength 40
    let number ← seqNum info 0
    let tcpDown := (reset flow.destPort flow.sourcePort number).computeChecksum dst src
    let ipUp := (IPv4Header.new TCPHeader.ipprotoTcp src dst).setTotalLength 40
    let number ← seqNum info 0
    let tcpUp := (reset flow.sourcePort flow.destPort number).computeChecksum src dst
    .ok [⟨ipDown, tcpDown, (src, flow.sourcePort)⟩, ⟨ipUp, tcpUp, (dst, flow.destPort)⟩]
  else .ok []

/-- `RejectManager<StackLanIPv6>::rejectTCPFlow` -/
def rejectTCPFlow6 (isOpen : Bool) (flow : Flow) (info : Option TCPInfo) :
    Except Fault (List Forged6) := do
  let src := flow.address.ip6Src
  let dst := flow.address.ip6Dst
  if isOpen then
    let ipDown := (IPv6Header.new TCPHeader.ipprotoTcp).setSourceAddress dst
    let ipDown := ipDown.setDestinationAddress src
    let ipDown := ipDown.setTotalLength (BitVec.ofNat 16 TCPHeader.size)
    let number ← seqNum info 0
    let tcpDown := (reset flow.destPort flow.sourcePort number).computeChecksum6 ipDown
    let ipUp := (IPv6Header.new TCPHeader.ipprotoTcp).setSourceAddress src
    let ipUp := ipUp.setDestinationAddress dst
    let ipUp := ipUp.setTotalLength (BitVec.ofNat 16 TCPHeader.size)
    let number ← seqNum info 0
    let tcpUp := (reset flow.sourcePort flow.destPort number).computeChecksum6 ipUp
    .ok [⟨ipDown, tcpDown, (src, 0)⟩, ⟨ipUp, tcpUp, (dst, 0)⟩]
  else .ok []

/-! ### What they should say -/

def other : Side → Side
  | .originator => .responder
  | .responder => .originator

def address (flow : Flow) : Side → BitVec 32
  | .originator => flow.address.ip4Src
  | .responder => flow.address.ip4Dst

def address6 (flow : Flow) : Side → In6Addr
  | .originator => flow.address.ip6Src
  | .responder => flow.address.ip6Dst

def port (flow : Flow) : Side → BitVec 16
  | .originator => flow.sourcePort
  | .responder => flow.destPort

/-- The segment resets the connection as this side would, with the number kept for it. -/
structure Impersonates (flow : Flow) (info : TCPInfo) (side : Side) (tcp : TCPHeader) : Prop where
  number : info.seqNum[side.dir.index]? = some tcp.getSequence
  source : tcp.getSourcePort = port flow side
  destination : tcp.getDestinationPort = port flow (other side)
  rst : tcp.flags = 4

structure Impersonates4 (flow : Flow) (info : TCPInfo) (side : Side) (x : Forged4) : Prop where
  tcp : Impersonates flow info side x.tcp
  source : x.ip.ipSrc = address flow side
  destination : x.ip.ipDst = address flow (other side)

structure Impersonates6 (flow : Flow) (info : TCPInfo) (side : Side) (x : Forged6) : Prop where
  tcp : Impersonates flow info side x.tcp
  source : x.ip.ip6Src = address6 flow side
  destination : x.ip.ip6Dst = address6 flow (other side)

/-- In both stacks one segment goes out for each side. -/
def Resets (flow : Flow) (info : TCPInfo) : Prop :=
  (∃ down up, rejectTCPFlow true flow (some info) = .ok [down, up] ∧
    Impersonates4 flow info .responder down ∧ Impersonates4 flow info .originator up) ∧
  ∃ down up, rejectTCPFlow6 true flow (some info) = .ok [down, up] ∧
    Impersonates6 flow info .responder down ∧ Impersonates6 flow info .originator up

/-- The two directions stand at one number. -/
def Level (info : TCPInfo) : Prop := info.seqNum[0]? = info.seqNum[1]?

instance (info : TCPInfo) : Decidable (Level info) := inferInstanceAs (Decidable (_ = _))

/-! ### Each rejection -/

/-- What goes out for a side, whatever number it has. -/
def forged4 (flow : Flow) (side : Side) (number : Option (BitVec 32)) : Forged4 where
  ip := (IPv4Header.new TCPHeader.ipprotoTcp (address flow side)
    (address flow (other side))).setTotalLength 40
  tcp := (reset (port flow side) (port flow (other side)) number).computeChecksum (address flow side)
    (address flow (other side))
  endpoint := (address flow (other side), port flow (other side))

def forged6 (flow : Flow) (side : Side) (number : Option (BitVec 32)) : Forged6 where
  ip := TCPHeader.ipv6 (address6 flow side) (address6 flow (other side))
  tcp := (reset (port flow side) (port flow (other side)) number).computeChecksum6
    (TCPHeader.ipv6 (address6 flow side) (address6 flow (other side)))
  endpoint := (address6 flow (other side), 0)

/-- Both builders of both stacks swap the ends as they should, and take the same number. -/
theorem rejectTCPFlow_eq {info : Option TCPInfo} {number : Option (BitVec 32)} (flow : Flow)
    (read : seqNum info 0 = .ok number) :
    rejectTCPFlow true flow info =
        .ok [forged4 flow .responder number, forged4 flow .originator number] ∧
      rejectTCPFlow6 true flow info =
        .ok [forged6 flow .responder number, forged6 flow .originator number] := by
  unfold rejectTCPFlow rejectTCPFlow6
  simp only [read, bind, Except.bind]
  exact ⟨rfl, rfl⟩

theorem reset_fields (sourcePort destinationPort : BitVec 16) (n : BitVec 32) (check : BitVec 16) :
    let tcp := (reset sourcePort destinationPort (some n)).setChecksum check
    tcp.getSequence = n ∧ tcp.getSourcePort = sourcePort ∧
      tcp.getDestinationPort = destinationPort ∧ tcp.flags = 4 :=
  ⟨htonl_htonl n, ntohs_htons sourcePort, ntohs_htons destinationPort,
    (by decide : (0 ||| 4 : BitVec 8) = 4)⟩

theorem impersonates_iff (flow : Flow) (info : TCPInfo) (n : BitVec 32) (side : Side) :
    (Impersonates4 flow info side (forged4 flow side (some n)) ↔
      info.seqNum[side.dir.index]? = some n) ∧
    (Impersonates6 flow info side (forged6 flow side (some n)) ↔
      info.seqNum[side.dir.index]? = some n) := by
  have fields := reset_fields (port flow side) (port flow (other side)) n
  constructor
  · obtain ⟨number, source, destination, rst⟩ := fields (forged4 flow side (some n)).tcp.check
    constructor
    · intro held
      exact held.tcp.number.trans (congrArg some number)
    · intro kept
      exact ⟨⟨kept.trans (congrArg some number.symm), source, destination, rst⟩, rfl, rfl⟩
  · obtain ⟨number, source, destination, rst⟩ := fields (forged6 flow side (some n)).tcp.check
    constructor
    · intro held
      exact held.tcp.number.trans (congrArg some number)
    · intro kept
      exact ⟨⟨kept.trans (congrArg some number.symm), source, destination, rst⟩, rfl, rfl⟩

/-- Both segments have the number kept for the originator. -/
theorem resets_iff {info : TCPInfo} (both : info.seqNum.length = 2) (flow : Flow) :
    Resets flow info ↔ Level info := by
  obtain ⟨u, v, numbers⟩ := List.length_eq_two.mp both
  have read : seqNum (some info) 0 = .ok (some u) := by
    simp only [seqNum, Tcp.index, numbers]
    rfl
  obtain ⟨ran4, ran6⟩ := rejectTCPFlow_eq flow read
  have down := impersonates_iff flow info u .responder
  have up := impersonates_iff flow info u .originator
  have level : Level info ↔ info.seqNum[Side.responder.dir.index]? = some u := by
    show info.seqNum[0]? = info.seqNum[1]? ↔ info.seqNum[1]? = some u
    rw [numbers]
    exact eq_comm
  have own : info.seqNum[Side.originator.dir.index]? = some u := by
    rw [numbers]
    rfl
  rw [level]
  constructor
  · rintro ⟨⟨d, o, ran, held, -⟩, -⟩
    have same := (Except.ok.inj (ran4.symm.trans ran))
    obtain rfl := (List.cons.inj same).1
    exact down.1.mp held
  · intro equal
    exact ⟨⟨_, _, ran4, down.1.mpr equal, up.1.mpr own⟩, _, _, ran6, down.2.mpr equal, up.2.mpr own⟩

/-! ### Rejections in a run -/

theorem always_both (m : Machine) (forwards : Bool) (xs : List Sent) :
    Transition.Always Connection.step (fun c => c.machine.info.seqNum.length = 2)
      (Connection.start m forwards) xs := by
  refine Transition.always_of_inv ?_ rfl
  intro c x c' both h
  obtain ⟨m', moved, rfl, -, -⟩ := Connection.step_machine h
  obtain ⟨-, -, written⟩ := Connection.machine_step moved
  rw [written, List.length_set]
  exact both

/-- Wherever in a run in order the flow is rejected, it is reset right exactly when the numbers of the two
directions are equal. -/
theorem always_resets_iff (m : Machine) (forwards : Bool) (xs : List Sent) :
    Transition.Always Connection.step
      (fun c => Resets c.machine.flow c.machine.info ↔ Level c.machine.info)
      (Connection.start m forwards) xs :=
  Transition.always_mono (fun _ both => resets_iff both _) (always_both m forwards xs)

/-- A flow that is rejected at its SYN: the host that has sent nothing resets with the number of the one
that has. -/
theorem not_always_resets :
    ¬∀ (m : Machine) (forwards : Bool) (xs : List Sent),
      Transition.Always Connection.step (fun c => Resets c.machine.flow c.machine.info)
        (Connection.start m forwards) xs := by
  intro h
  let m : Machine := ⟨{}, { Flow.new with sourcePort := 49152, destPort := 80 }, {}⟩
  let xs : List Sent := [⟨.originator, { syn := true, seq := 1000 }, 0⟩]
  have run := Transition.always_and (h m true xs) (always_both m true xs)
  have level : Transition.Always Connection.step (fun c => Level c.machine.info)
      (Connection.start m true) xs :=
    Transition.always_mono (fun c held => (resets_iff held.2 c.machine.flow).mp held.1) run
  revert level
  exact Transition.not_always_of_run (by decide +kernel)

end AIEngine.RejectManager
