import AIEngine.Applications.Works

/-!
# Packets of SSDP, SSL, DNS and SIP

The parsers with loops: the work of one turn is proved first, and by induction that of the loop.
-/

namespace AIEngine

open Ending Inspector

/-! ### SSDP -/

namespace SSDPProtocol

variable {s t : SSDPProtocol} {a i : Obj}

theorem countRequest_works (s : SSDPProtocol) : Works .ssdp a i s (countRequest s) :=
  works_same rfl rfl

theorem addHeaderSize_works (s : SSDPProtocol) (n : Nat) :
    Works .ssdp a i s (addHeaderSize s n) := works_same rfl rfl

theorem noteResponseCode_works (s : SSDPProtocol) (code : Int) :
    Works .ssdp a i s (noteResponseCode s i code) := by
  unfold noteResponseCode
  split
  · exact setInfo_works s i _
  · exact works_refl s

theorem attachUri_works (uri : Bytes) (filled : s.world.Filled) :
    Ends NotNull (Works .ssdp a i s) (attachUri s i uri) := by
  unfold attachUri
  apply ends_bind (intern_works World.Ssdp.attachUri rfl filled)
  intro t worked
  split
  · exact works_trans worked (countRequest_works t)
  · exact worked

theorem extractUri_works (p : L7Packet) (filled : s.world.Filled) :
    Ends NotNull (fun r => Works .ssdp a i s r.2) (extractUri s i p) := by
  unfold extractUri
  split
  · have counted : Works .ssdp a i s (incTotalResponses s i) := works_same rfl rfl
    have response := works_trans counted
      (noteResponseCode_works (incTotalResponses s i) (HTTPProtocol.atoi (p.memory.drop 8)))
    simp only
    split
    · exact response
    · exact response
  · split
    · exact works_refl s
    · split
      · apply ends_bind (substr_notNull _ _ _)
        intro uri _
        have request : Works .ssdp a i s (incTotalRequests s i) := works_same rfl rfl
        apply ends_bind (ends_after request (attachUri_works uri (works_filled request filled)))
        intro t worked
        exact worked
      · exact works_refl s

theorem processHostParameter_works (host : Bytes) (filled : s.world.Filled) :
    Ends NotNull (fun r => Works .ssdp a i s r.2) (processHostParameter s i host) := by
  unfold processHostParameter
  split
  · exact countBan_works rfl s
  · apply ends_bind (allow_works World.Ssdp.attachHost rfl filled)
    intro t worked
    exact worked

theorem callback_works (header : Bytes) (c : HTTPHeader.Cursor) (filled : s.world.Filled) :
    Ends NotNull (fun r => Works .ssdp a i s r.2) (callback s i header c) := by
  unfold callback
  split
  · apply ends_bind (substr_notNull _ _ _)
    intro host _
    exact processHostParameter_works host filled
  · exact works_refl s

theorem turn_works (p : L7Packet) (offset : Nat) (header : Bytes) (c : HTTPHeader.Cursor)
    (filled : s.world.Filled) :
    Ends NotNull (fun r => Works .ssdp a i s r.2.2) (turn s i p offset header c) := by
  unfold turn
  split
  · apply ends_bind (callback_works header c filled)
    intro r worked
    simp only
    split
    · exact worked
    · split
      · exact worked
      · exact worked
  · split
    · apply ends_bind (substr_notNull _ _ _)
      intro field _
      exact works_refl s
    · exact works_refl s

theorem loop_works (p : L7Packet) (offset : Nat) (header : Bytes) (n : Nat) (c : HTTPHeader.Cursor)
    (filled : s.world.Filled) :
    Ends NotNull (Works .ssdp a i s) (loop i p offset header n s c) := by
  induction n generalizing s c with
  | zero => exact addHeaderSize_works s c.i
  | succ n ih =>
    unfold loop
    split
    · apply ends_bind (turn_works p offset header c filled)
      intro r worked
      obtain ⟨next, size, t⟩ := r
      simp only
      split
      · exact ends_after worked (ih _ (works_filled worked filled))
      · exact works_trans worked (addHeaderSize_works t size)
    · exact addHeaderSize_works s c.i

theorem processLines_works (p : L7Packet) (offset : Nat) (filled : s.world.Filled) :
    Ends NotNull (Works .ssdp a i s) (processLines s i p offset) := by
  unfold processLines
  split
  · simp only
    have sized : Works .ssdp a i s
        { s with own := { s.own with ssdpHeaderSize := HTTPProtocol.int16 offset } } :=
      works_same rfl rfl
    unfold parseHeader
    apply ends_bind (substr_notNull _ _ _)
    intro header _
    exact ends_after sized (loop_works p offset header _ _ filled)
  · exact works_refl s

theorem matchHost_works : Ends NotNull (Works .ssdp a i s) (matchHost s i) := by
  unfold matchHost
  split
  · apply ends_bind (lookupHost_notNull s)
    intro _ _
    exact works_refl s
  · exact works_refl s

theorem processHeader_works (p : L7Packet) (filled : s.world.Filled) :
    Ends NotNull (Works .ssdp a i s) (processHeader p s i) := by
  unfold processHeader
  apply ends_bind (extractUri_works p filled)
  intro r worked
  obtain ⟨offset, t⟩ := r
  simp only
  have after := works_filled worked filled
  apply ends_bind (ends_after worked (processLines_works p offset after))
  intro u worked
  exact ends_after worked matchHost_works

theorem processFlow_handled (p : L7Packet) (filled : s.world.Filled) :
    Ends NotNull (fun t => World.Handled .ssdp a (t.totalBan ≠ s.totalBan) s.world t.world)
      (processFlow s a p) :=
  withInfo_handled (World.setFlow_self s.world a).symm (fun _ => rfl) rfl filled
    fun _ _ after => unlessBanned_works (processHeader_works p after)

end SSDPProtocol

/-! ### SSL -/

namespace SSLProtocol

variable {s t : SSLProtocol} {a i : Obj}

section

variable {E : Failure → Prop} (outside : E (.fault .outOfBounds))

include outside

theorem serverNameIn_ends (p : L7Packet) (data place : Nat) :
    Ends E Any (serverNameIn p data place) := by
  unfold serverNameIn
  apply ends_bind (HttpPacket.word_ends outside p _)
  intro length _
  split
  · trivial
  · trivial

theorem extension_ends (p : L7Packet) (data place : Nat) :
    Ends E Any (extension p data place) := by
  unfold extension
  apply ends_bind (HttpPacket.word_ends outside p _)
  intro type _
  split
  · apply ends_bind (HttpPacket.word_ends outside p _)
    intro length _
    apply ends_bind (HttpPacket.word_ends outside p _)
    intro next _
    split
    · exact serverNameIn_ends outside p data _
    · trivial
  · split
    · exact serverNameIn_ends outside p data _
    · trivial

theorem afterCompression_ends (p : L7Packet) (data place : Nat) :
    Ends E Any (afterCompression p data place) := by
  unfold afterCompression
  apply ends_bind (HttpPacket.byte_ends outside p _)
  intro compression _
  split
  · trivial
  · trivial

theorem extensions_ends (p : L7Packet) (data place : Nat) :
    Ends E Any (extensions p data place) := by
  unfold extensions
  split
  · apply ends_bind (HttpPacket.word_ends outside p _)
    intro length _
    split
    · exact extension_ends outside p data _
    · trivial
  · trivial

theorem serverName_ends (p : L7Packet) (data offset : Nat) :
    Ends E Any (serverName p data offset) := by
  unfold serverName
  apply ends_bind (HttpPacket.word_ends outside p _)
  intro version _
  split
  · apply ends_bind (HttpPacket.byte_ends outside p _)
    intro session _
    apply ends_bind (HttpPacket.word_ends outside p _)
    intro cipher _
    split
    · apply ends_bind (afterCompression_ends outside p data _)
      intro place _
      exact extensions_ends outside p data place
    · trivial
  · trivial

end

theorem handleClientHello_works (p : L7Packet) (data offset : Nat) (filled : s.world.Filled) :
    Ends NotNull (Works .ssl a i s) (handleClientHello s i p data offset) := by
  unfold handleClientHello
  apply ends_bind (serverName_ends notNull_outside p data offset)
  intro name _
  split
  · exact works_refl s
  · split
    · exact countBan_works rfl s
    · exact allow_works World.Ssl.attachHost rfl filled

theorem handleRecord_works (p : L7Packet) (type : BitVec 8) (record offset blockLength : Nat)
    (filled : s.world.Filled) :
    Ends NotNull (fun r => Works .ssl a i s r.2.2)
      (handleRecord s i p type record offset blockLength) := by
  unfold handleRecord
  split
  · apply ends_bind (handleClientHello_works p _ _ filled)
    intro t worked
    exact worked
  · split
    · exact works_refl s
    · exact works_refl s

theorem records_works (p : L7Packet) (attempts record offset : Nat) (filled : s.world.Filled) :
    Ends NotNull (Works .ssl a i s) (records i p attempts s record offset) := by
  induction attempts generalizing s record offset with
  | zero => exact works_refl s
  | succ attempts ih =>
    unfold records
    apply ends_bind (p.word_notNull _)
    intro version _
    apply ends_bind (p.word_notNull _)
    intro blockLength _
    apply ends_bind (p.byte_notNull _)
    intro type _
    split
    · apply ends_bind (handleRecord_works p type record offset blockLength filled)
      intro r worked
      obtain ⟨record', offset', t⟩ := r
      simp only
      split
      · exact ends_after worked (ih _ _ (works_filled worked filled))
      · exact worked
    · exact works_refl s

theorem matchHost_works : Ends NotNull (Works .ssl a i s) (matchHost s a i) := by
  unfold matchHost
  split
  · apply ends_bind (lookupHost_notNull s)
    intro _ _
    exact works_refl s
  · exact works_refl s

theorem processRecords_works (p : L7Packet) (filled : s.world.Filled) :
    Ends NotNull (Works .ssl a i s) (processRecords a p s i) := by
  unfold processRecords
  split
  · apply ends_bind (p.word_notNull _)
    intro length _
    split
    · apply ends_bind (records_works p _ _ _ filled)
      intro t worked
      exact ends_after worked matchHost_works
    · exact works_refl s
  · split
    · exact setInfo_works s i _
    · exact works_refl s

theorem processFlow_handled (p : L7Packet) (filled : s.world.Filled) :
    Ends NotNull (fun t => World.Handled .ssl a (t.totalBan ≠ s.totalBan) s.world t.world)
      (processFlow s a p) := by
  refine withInfo_handled (f := { s.world.flows a with
    totalPacketsL7 := (s.world.flows a).totalPacketsL7 + 1 }) rfl ?_ rfl
    (World.filled_same filled fun _ => rfl)
    fun _ _ after => unlessBanned_works (processRecords_works p after)
  intro q
  cases q <;> rfl

end SSLProtocol

/-! ### DNS -/

namespace DNSProtocol

variable {s t : DNSProtocol} {a i : Obj}

theorem nameLoop_notNull (p : L7Packet) (left offset : Nat) :
    Ends NotNull Any (nameLoop p left offset) := by
  induction left generalizing offset with
  | zero =>
    unfold nameLoop
    apply ends_bind (p.byte_notNull _)
    intro b _
    split
    · trivial
    · trivial
  | succ left ih =>
    unfold nameLoop
    apply ends_bind (p.byte_notNull _)
    intro b _
    split
    · trivial
    · apply ends_bind (ih (offset + 1))
      intro rest _
      trivial

theorem skipName_notNull (p : L7Packet) (left offset : Nat) :
    Ends NotNull Any (skipName p left offset) := by
  induction left generalizing offset with
  | zero =>
    unfold skipName
    apply ends_bind (p.byte_notNull _)
    intro b _
    split
    · trivial
    · trivial
  | succ left ih =>
    unfold skipName
    apply ends_bind (p.byte_notNull _)
    intro b _
    split
    · trivial
    · exact ih (offset + 1)

theorem extractDomainName_works (p : L7Packet) :
    Ends NotNull (fun r => Works .dns a i s r.2.2) (extractDomainName s a p) := by
  unfold extractDomainName
  apply ends_bind (nameLoop_notNull p _ _)
  intro r _
  obtain ⟨name, offset, long⟩ := r
  show Works .dns a i s (if long then s.noteAnomaly a .dnsLongName else s)
  split
  · exact noteAnomaly_works s _
  · exact works_refl s

theorem question_notNull (p : L7Packet) (name : Bytes) (offset : Nat) :
    Ends NotNull Any (question p name offset) := by
  unfold question
  apply ends_bind (p.word_notNull _)
  intro qtype _
  trivial

theorem attachDnsToFlow_works (domain : Bytes) (qtype : Nat) (filled : s.world.Filled) :
    Ends NotNull (Works .dns a i s) (attachDnsToFlow s i domain qtype) := by
  unfold attachDnsToFlow
  apply ends_bind (intern_works World.Dns.attachDnsToFlow rfl filled)
  intro t worked
  split
  · exact works_trans worked (setInfo_works t i _)
  · exact worked

theorem handleStandardQuery_works (p : L7Packet) (filled : s.world.Filled) :
    Ends NotNull (Works .dns a i s) (handleStandardQuery s a i p) := by
  unfold handleStandardQuery
  apply ends_bind (extractDomainName_works p)
  intro r named
  obtain ⟨name, offset, t⟩ := r
  simp only
  apply ends_bind (question_notNull p name offset)
  intro q _
  obtain ⟨domain, offset', qtype⟩ := q
  simp only
  have noted : Works .dns a i s
      (if p.payload.length < headerSize + offset' then t.noteAnomaly a .dnsBogusHeader else t) := by
    split
    · exact works_trans named (noteAnomaly_works t _)
    · exact named
  refine ends_after noted ?_
  have after := works_filled noted filled
  generalize (if p.payload.length < headerSize + offset' then t.noteAnomaly a .dnsBogusHeader
    else t) = u at after
  split
  · exact countBan_works rfl u
  · have allowed : Works .dns a i u u.countAllow := works_same rfl rfl
    exact ends_after allowed (attachDnsToFlow_works domain qtype after)

theorem address_notNull (p : L7Packet) (ptr type classType blockLength : Nat) :
    Ends NotNull Any (address p ptr type classType blockLength) := by
  unfold address
  split
  · apply ends_bind (p.slice_notNull _ _)
    intro octets _
    trivial
  · split
    · apply ends_bind (p.slice_notNull _ _)
      intro octets _
      trivial
    · trivial

theorem addIPAddress_works (s : DNSProtocol) (ip : Option Bytes) :
    Works .dns a i s (addIPAddress s i ip) := by
  cases ip with
  | none => exact works_refl s
  | some ip => exact setInfo_works s i _

theorem answerLoop_works (p : L7Packet) (answers ptr : Nat) :
    Ends NotNull (Works .dns a i s) (answerLoop i p answers s ptr) := by
  induction answers generalizing s ptr with
  | zero => exact works_refl s
  | succ answers ih =>
    unfold answerLoop
    apply ends_bind (p.word_notNull _)
    intro blockLength _
    apply ends_bind (p.word_notNull _)
    intro type _
    apply ends_bind (p.word_notNull _)
    intro classType _
    apply ends_bind (address_notNull p _ _ _ _)
    intro ip _
    exact ends_after (addIPAddress_works s ip) (ih _)

theorem extractAddresses_works (p : L7Packet) :
    Ends NotNull (Works .dns a i s) (extractAddresses s a i p) := by
  unfold extractAddresses
  apply ends_bind (skipName_notNull p _ _)
  intro skipped _
  split
  · exact noteAnomaly_works s _
  · apply ends_bind (p.word_notNull _)
    intro answers _
    exact answerLoop_works p answers _

theorem responseName_works (p : L7Packet) (filled : s.world.Filled) :
    Ends NotNull (fun r => Works .dns a i s r.2) (responseName s a i p) := by
  unfold responseName
  split
  · exact works_refl s
  · apply ends_bind (extractDomainName_works p)
    intro r named
    obtain ⟨name, offset, t⟩ := r
    simp only
    apply ends_bind (question_notNull p name offset)
    intro q _
    have after := works_filled named filled
    apply ends_bind (ends_after named (attachDnsToFlow_works q.1 q.2.2 after))
    intro u worked
    exact worked

theorem handleStandardResponse_works (p : L7Packet) (filled : s.world.Filled) :
    Ends NotNull (Works .dns a i s) (handleStandardResponse s a i p) := by
  unfold handleStandardResponse
  apply ends_bind (responseName_works p filled)
  intro r worked
  obtain ⟨domain, t⟩ := r
  simp only
  split
  · exact ends_after worked (extractAddresses_works p)
  · exact worked

theorem processMessage_works (p : L7Packet) (filled : s.world.Filled) :
    Ends NotNull (Works .dns a i s) (processMessage a p s i) := by
  unfold processMessage
  apply ends_bind (p.word_notNull _)
  intro flags _
  split
  · apply ends_bind (p.word_notNull _)
    intro questions _
    split
    · exact handleStandardQuery_works p filled
    · exact works_refl s
  · split
    · apply ends_bind (p.word_notNull _)
      intro answers _
      split
      · exact handleStandardResponse_works p filled
      · exact works_refl s
    · exact works_refl s

theorem noteAnomaly_handled (pa : PacketAnomalyType) :
    World.Handled .dns a ((s.noteAnomaly a pa).totalBan ≠ s.totalBan) s.world
      (s.noteAnomaly a pa).world := by
  unfold noteAnomaly
  split
  · refine .noted ((s.world.flows a).setPacketAnomaly pa) (fun q => ?_) rfl fun grew => grew rfl
    cases q <;> rfl
  · exact .noted (s.world.flows a) (fun _ => rfl) (World.setFlow_self s.world a).symm
      fun grew => grew rfl

theorem processFlow_handled (p : L7Packet) (filled : s.world.Filled) :
    Ends NotNull (fun t => World.Handled .dns a (t.totalBan ≠ s.totalBan) s.world t.world)
      (processFlow s a p) := by
  unfold processFlow
  split
  · exact withInfo_handled (World.setFlow_self s.world a).symm (fun _ => rfl) rfl filled
      fun _ _ after => processMessage_works p after
  · exact noteAnomaly_handled _

end DNSProtocol

/-! ### SIP -/

namespace SIPProtocol

variable {s t : SIPProtocol} {a i : Obj}

theorem extractUriValue_works (p : L7Packet) (filled : s.world.Filled) :
    Ends NotNull (Works .sip a i s) (extractUriValue s i p) := by
  unfold extractUriValue
  split
  · exact works_refl s
  · split
    · exact works_refl s
    · split
      · apply ends_bind (substr_notNull _ _ _)
        intro uri _
        exact intern_works World.Sip.attachUriToFlow rfl filled
      · exact works_refl s

/-- The three expressions differ in the buffer they write and the string they attach. -/
theorem extractValue_works {found : Bool × Regex} {name : Nat} {x : StringField}
    {always countHit : Bool} (attach : World → Obj → Bytes → Except Fault World)
    (interns : attach = fun w => w.intern .sip x always countHit) (filled : s.world.Filled) :
    Ends NotNull (Works .sip a i s) (extractValue s i found name attach) := by
  unfold extractValue
  split
  · apply ends_bind (substr_notNull _ _ _)
    intro value _
    exact intern_works attach interns filled
  · exact works_refl s

theorem own_works (s : SIPProtocol) (own : SIPExpressions) :
    Works .sip a i s { s with own := own } := works_same rfl rfl

theorem extractViaValue_works (p : L7Packet) (filled : s.world.Filled) :
    Ends NotNull (Works .sip a i s) (extractViaValue s i p) :=
  ends_after (own_works s _) (extractValue_works World.Sip.attachViaToFlow rfl filled)

theorem extractFromValue_works (p : L7Packet) (filled : s.world.Filled) :
    Ends NotNull (Works .sip a i s) (extractFromValue s i p) :=
  ends_after (own_works s _) (extractValue_works World.Sip.attachFromToFlow rfl filled)

theorem extractToValue_works (p : L7Packet) (filled : s.world.Filled) :
    Ends NotNull (Works .sip a i s) (extractToValue s i p) :=
  ends_after (own_works s _) (extractValue_works World.Sip.attachToToFlow rfl filled)

theorem processHeader_works (p : L7Packet) (filled : s.world.Filled) :
    Ends NotNull (Works .sip a i s) (processHeader p s i) := by
  unfold processHeader
  apply ends_bind (extractUriValue_works p filled)
  intro t worked
  apply ends_bind (ends_after worked (extractViaValue_works p (works_filled worked filled)))
  intro t worked
  apply ends_bind (ends_after worked (extractFromValue_works p (works_filled worked filled)))
  intro t worked
  exact ends_after worked (extractToValue_works p (works_filled worked filled))

theorem processFlow_handled (p : L7Packet) (filled : s.world.Filled) :
    Ends NotNull (fun t => World.Handled .sip a (t.totalBan ≠ s.totalBan) s.world t.world)
      (processFlow s a p) := by
  refine withInfo_handled (f := { s.world.flows a with
    totalPacketsL7 := (s.world.flows a).totalPacketsL7 + 1 }) rfl ?_ rfl
    (World.filled_same filled fun _ => rfl) fun _ _ after => processHeader_works p after
  intro q
  cases q <;> rfl

end SIPProtocol

end AIEngine
