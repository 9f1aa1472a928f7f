import AIEngine.Stack.Balance

/-!
# How deep the calls of a stack are nested

Each call of `forwardPacket` is for a layer higher up, those of a tunnel included. So the calls come to an
end, and no multiplexer gets a frame twice.
-/

namespace AIEngine

open Ending (bind_ok bind_congr_ok)
open Stack (Frame)
open StackKind (Wired known_links)

namespace NetworkStack

variable {τ : Type} {T : Transports τ} {s s' t : NetworkStack τ} {m : Mux} {p q : Frame} {n : Nat}
  {forward forward' : NetworkStack τ → Mux → Frame → Except Fault (NetworkStack τ × Frame)}

/-- Two ways to go on from a tunnel that do the same. -/
def Alternatives (forward forward' : NetworkStack τ → Mux → Frame → Except Fault (NetworkStack τ × Frame)) :
    Prop :=
  ∀ s p, Wired s.kind s.links → forward s .tunnel p = forward' s .tunnel p

theorem runTunnel_congr (wired : Wired s.kind s.links) (same : Alternatives forward forward') (T : Transports τ)
    (h : Handed) (p : Frame) : s.runTunnel forward h p = s.runTunnel forward' h p := by
  unfold runTunnel
  refine bind_congr_ok fun ⟨t, content⟩ opens => ?_
  obtain ⟨-, still⟩ := openTunnel_accounts (T := T) opens
  cases content with
  | nothing | context => rfl
  | packet inner =>
    have next := same t inner (by rw [still.kind, still.links]; exact wired)
    dsimp only
    rw [next]

theorem forwardFlow_congr (wired : Wired s.kind s.links) (same : Alternatives forward forward')
    (T : Transports τ) (h : Handed) (p : Frame) :
    s.forwardFlow forward h p = s.forwardFlow forward' h p := by
  unfold forwardFlow
  split
  · exact runTunnel_congr wired same T h p
  · refine bind_congr_ok fun ⟨accepted, t⟩ checked => ?_
    obtain ⟨-, still⟩ := tunnelChecker_accounts (T := T) checked
    dsimp only
    split
    · exact runTunnel_congr (by rw [still.kind, still.links]; exact wired) same T h p
    · rfl

theorem packetFunc_congr (wired : Wired s.kind s.links)
    (same : s.kind.carrier = some m → Alternatives forward forward') (p : Frame) :
    s.packetFunc T forward m p = s.packetFunc T forward' m p := by
  have transport (m : Mux) (same : s.kind.carrier = some m → Alternatives forward forward') :
      s.processTransport T forward m p = s.processTransport T forward' m p := by
    unfold processTransport
    dsimp only
    split
    · rename_i carrier
      unfold processCarrier
      refine bind_congr_ok fun ⟨u, p', handed⟩ before => ?_
      cases handed with
      | none => rfl
      | some h =>
        have flow := forwardFlow_congr (s := { s with upper := u }) wired (same carrier) T h p'
        dsimp only
        rw [flow]
    · rfl
  cases m with
  | udp | tcp | icmp | udpVir | tcpVir | icmpVir =>
    unfold packetFunc
    dsimp only
    rw [transport _ same]
  | _ => rfl

/-- One more call would change nothing. -/
theorem forwardPacket_enough (wired : Wired s.kind s.links) (enough : 8 ≤ n + m.rank) (p : Frame) :
    forwardPacket T (n + 1) s m p = forwardPacket T n s m p := by
  induction n generalizing s m p with
  | zero =>
    exfalso
    cases m <;> simp [Mux.rank] at enough
  | succ n ih =>
    rw [forwardPacket, forwardPacket]
    dsimp only
    cases found : (s.countReceived m).getUpMultiplexer m
        ((s.countReceived m).relay m).registers.nextProtocolId with
    | none => rfl
    | some up =>
      obtain ⟨l, linked, rfl, -, rfl⟩ := getUpMultiplexer_linked found
      have linked : l ∈ s.links := linked
      have known := known_links s.kind l (wired l linked)
      refine bind_congr_ok ?_
      rintro ⟨accepted, t, p₁⟩ accepts
      obtain ⟨-, same⟩ := acceptPacket_accounts known.1 accepts
      have same : Same s t := ⟨same.kind, same.links⟩
      have wired' : Wired t.kind t.links := by
        rw [same.kind, same.links]
        exact wired
      have higher := l.rises
      have low : t.kind.carrier = some l.target → 8 ≤ n + Mux.tunnel.rank := by
        intro carrier
        rw [same.kind] at carrier
        have middle := known.2.2.2 carrier
        show 8 ≤ n + 4
        omega
      dsimp only
      split
      · rw [packetFunc_congr wired' (fun carrier s' p' wired'' => ih wired'' (low carrier) p') p₁]
        refine bind_congr_ok ?_
        rintro ⟨goes, t', p₂⟩ ran
        obtain ⟨-, same'⟩ := packetFunc_handling wired' (fun carrier => forwardPacket_passes (low carrier)) ran
        have kind : (t'.countForward l.source).kind = s.kind := same'.kind.trans same.kind
        have links : (t'.countForward l.source).links = s.links := same'.links.trans same.links
        dsimp only
        split
        · rw [ih (m := l.target) (by rw [kind, links]; exact wired) (by omega) p₂]
        · rfl
      · rfl

theorem depth_enough (wired : Wired s.kind s.links) (n : Nat) (p : Frame) :
    forwardPacket T (depth + n) s m p = forwardPacket T depth s m p := by
  induction n with
  | zero => rfl
  | succ n ih =>
    rw [← ih]
    exact forwardPacket_enough wired (show 8 ≤ 8 + n + m.rank by omega) p

/-- What a frame may do: no further call could be nested in those it makes, and no multiplexer gets it
twice. -/
structure Linear (T : Transports τ) (s t : NetworkStack τ) : Prop where
  nested : ∀ n m p, forwardPacket T (depth + n) s m p = forwardPacket T depth s m p
  once : ∀ m, (t.relay m).totalReceivedPackets ≤ (s.relay m).totalReceivedPackets + 1

/-- In every run the calls for a frame come to an end, and each multiplexer receives it at most once. -/
theorem along_linear (kind : StackKind) (upper : τ) (calls : List Call) :
    Transition.Along (step T) (fun s _ t => Linear T s t) (new kind upper) calls := by
  have always : Transition.Always (step T) (fun s => Wired s.kind s.links) (new kind upper) calls :=
    Transition.always_of_inv (fun s c t wired stepped => wired_step wired stepped) (wired_new kind upper)
  refine Transition.along_of_always (fun s c t wired _ stepped => ⟨fun n m p => depth_enough wired n p, ?_⟩)
    always
  intro m
  have accounted : ((t.accounts T).received m ≤ (s.accounts T).received m + 1) := by
    rcases step_cases stepped with ⟨raw, time, q, -, forwarded⟩ | ⟨type, -, rfl⟩
    · obtain ⟨refused | passage, -⟩ := forwardRawPacket_accounts wired forwarded
      · rw [refused]
        exact Nat.le_succ _
      · have most := passage.received_le wired m
        have bound : (if Mux.eth.rank ≤ m.rank then 1 else 0) ≤ 1 := by split <;> omega
        exact Nat.le_trans most (Nat.add_le_add_left bound _)
    · rw [(accounts_enableLinkLayerTagging type).1]
      exact Nat.le_succ _
  exact accounted

end NetworkStack

end AIEngine
