/-
Two bridge channels over a wire that drops, repeats and reorders packets: what one
returns is what the other was given, in its order and its phase, and a deviation
is the end of it; over a faithful wire what was accepted and fits is returned.
-/
import LocalHand.BridgeDelivery
import LocalHand.Lib.PyData

namespace LocalHand.QuotaBridge

open PyJson ResultReader QuotaContract QuotaPayload Program Machine
open Framing (Bytes)

variable {F : Type}

/-! ## Runs -/

inductive Peer where
  | left | right
  deriving Repr, DecidableEq

def Peer.other : Peer → Peer
  | .left => .right
  | .right => .left

/-- A call of `send`: the channel it found, and whether it has returned. -/
structure Call (F : Type) where
  channel : Channel
  value : Value F
  accepted : Bool

/-- A party and its calls, those of `receive` with the phase they were made in. -/
structure Side (F : Type) where
  party : Party
  sent : List (Call F)
  received : List (Nat × Except Fault (Value F))

structure State (F : Type) where
  left : Side F
  right : Side F

def State.side (s : State F) : Peer → Side F
  | .left => s.left
  | .right => s.right

def State.set (s : State F) (who : Peer) (side : Side F) : State F :=
  match who with
  | .left => { s with left := side }
  | .right => { s with right := side }

inductive Event (F : Type) where
  | send (who : Peer) (early : Option Fault) (sending : Nat → Sending) (late : Option Fault) (value : { v : Value F // v.WF })
  | receive (who : Peer) (early : Option Fault) (arrivals : List Arrival) (late : Option Fault)
  | advancePhase (who : Peer) (early : Option Fault) (phase : String)

section

variable (host : Host F)

def Side.send (side : Side F) (early : Option Fault) (sending : Nat → Sending) (late : Option Fault) (value : Value F) : Side F :=
  let out := (QuotaBridge.send host early sending late value).from side.party
  { side with party := out.2, sent := side.sent ++ [⟨side.party.channel, value, out.1.isOk⟩] }

def Side.receive (side : Side F) (early : Option Fault) (peer : List Bytes) (arrivals : List Arrival) (late : Option Fault) :
    Side F :=
  let out := (QuotaBridge.receive host early peer arrivals late).from side.party
  { side with party := out.2, received := side.received ++ [(side.party.channel.phaseIndex, out.1)] }

def Side.advancePhase (side : Side F) (early : Option Fault) (phase : String) : Side F :=
  { side with party := ((QuotaBridge.advancePhase early phase).from side.party).2 }

def step (s : State F) : Event F → State F
  | .send who early sending late value => s.set who ((s.side who).send host early sending late value.1)
  | .receive who early arrivals late =>
    s.set who ((s.side who).receive host early (s.side who.other).party.out arrivals late)
  | .advancePhase who early phase => s.set who ((s.side who).advancePhase early phase)

end

def Channel.start (version : Version) (session : String) : Channel :=
  { version := version, session := session, tx := 0, rx := 0, total := 0, packets := 0, phaseIndex := 0, phaseTx := 0,
    phaseRx := 0, phaseTotal := 0, phasePackets := 0, poisoned := false }

def Side.start (version : Version) (session : String) : Side F := ⟨⟨.start version session, [], 0⟩, [], []⟩

/-- Both ends of one socket pair, before the first call. -/
def start (version : Version) (session : String) : State F := ⟨.start version session, .start version session⟩

/-! ## What is on the wire -/

section

variable (host : Host F)

/-- The text of a call. -/
def Call.text (call : Call F) : Bytes :=
  match prepared host call.channel call.value with
  | .ok raw => raw
  | .error _ => []

/-- The packets of calls, one call after another. -/
def stream (calls : List (Call F)) : List Bytes := calls.zipIdx.flatMap fun c => packetsOf c.2 (c.1.text host)

/-- A call of this number has this text. -/
def Message (calls : List (Call F)) (k : Nat) (raw : Bytes) : Prop :=
  ∃ call, calls[k]? = some call ∧ prepared host call.channel call.value = .ok raw

def inPhase (phase : Nat) (calls : List (Call F)) : Nat := calls.countP fun call => call.channel.phaseIndex = phase

end

variable {host : Host F} {version : Version} {session : String}

theorem stream_snoc (calls : List (Call F)) (call : Call F) :
    stream host (calls ++ [call]) = stream host calls ++ packetsOf calls.length (call.text host) := by
  simp [stream, List.zipIdx_append]

theorem text_prepared {call : Call F} {raw : Bytes} (h : prepared host call.channel call.value = .ok raw) :
    call.text host = raw := by
  rw [Call.text, h]

theorem packetsOf_nil (seq : Nat) : packetsOf seq [] = [] := rfl

theorem stream_mem {calls : List (Call F)} {packet : Bytes} (h : packet ∈ stream host calls) :
    ∃ k raw i, Message host calls k raw ∧ i < fragments raw ∧ packet = packetAt k raw i := by
  obtain ⟨⟨call, k⟩, hmem, hpacket⟩ := List.mem_flatMap.mp h
  rw [List.mem_zipIdx_iff_getElem?] at hmem
  cases hprepared : prepared host call.channel call.value with
  | error fault =>
    simp [Call.text, hprepared, packetsOf_nil] at hpacket
  | ok raw =>
    rw [text_prepared hprepared] at hpacket
    obtain ⟨i, hi, rfl⟩ := List.mem_map.mp hpacket
    exact ⟨k, raw, i, ⟨call, hmem, hprepared⟩, List.mem_range.mp hi, rfl⟩

theorem prepared_ok {c : Channel} {v : Value F} {raw : Bytes} (h : prepared host c v = .ok raw) :
    c.poisoned = false ∧ c.phaseTx < 64 ∧ c.tx < c.version.exchanges ∧
      ∃ env, envelope host c v = .ok env ∧ canonical host.floats env limit = .ok raw := by
  simp only [prepared, bind_ok, require_ok, exists_unit, Bool.and_eq_true, Bool.not_eq_true', decide_eq_true_eq] at h
  obtain ⟨⟨hlive, hphase, htx⟩, env, henv, hraw⟩ := h
  exact ⟨hlive, hphase, htx, env, henv, hraw⟩

theorem exchanges_le (version : Version) : version.exchanges ≤ 192 := by cases version <;> decide

/-- A call at its place in the calls of its side. -/
structure Call.Placed (version : Version) (session : String) (calls : List (Call F)) (k : Nat) (call : Call F) : Prop where
  ofVersion : call.channel.version = version
  ofSession : call.channel.session = session
  phased : call.channel.Phased
  wf : call.value.WF
  order : call.channel.poisoned = false → call.channel.tx = k ∧ call.channel.phaseTx = inPhase call.channel.phaseIndex (calls.take k)

/-- What holds of a side as a sender. -/
structure Side.Sound (host : Host F) (version : Version) (session : String) (side : Side F) : Prop where
  ofVersion : side.party.channel.version = version
  ofSession : side.party.channel.session = session
  phased : side.party.channel.Phased
  calls : ∀ k call, side.sent[k]? = some call → Call.Placed version session side.sent k call
  past : ∀ call ∈ side.sent, call.channel.phaseIndex ≤ side.party.channel.phaseIndex
  out : side.party.out <+: stream host side.sent
  live : side.party.channel.poisoned = false → side.party.channel.tx = side.sent.length ∧
    side.party.channel.phaseTx = inPhase side.party.channel.phaseIndex side.sent ∧ side.party.out = stream host side.sent
  accepted : ∀ k call, side.sent[k]? = some call → call.accepted = true →
    (∃ raw, prepared host call.channel call.value = .ok raw) ∧ stream host (side.sent.take (k + 1)) <+: side.party.out

theorem Side.Sound.messages {side : Side F} (h : side.Sound host version session) :
    Messages (Message host side.sent) side.party.out where
  packets packet hp := stream_mem (h.out.subset hp)
  sendable k raw hk := by
    obtain ⟨call, hcall, hprepared⟩ := hk
    obtain ⟨hlive, -, htx, env, -, hraw⟩ := prepared_ok hprepared
    obtain ⟨-, rfl, hlen⟩ := canonical_ok hraw
    have horder := ((h.calls k call hcall).order hlive).1
    have hle := exchanges_le call.channel.version
    exact ⟨by omega, wire_pos env, hlen⟩
  unique k raw raw' hk hk' := by
    obtain ⟨call, hcall, hprepared⟩ := hk
    obtain ⟨call', hcall', hprepared'⟩ := hk'
    rw [hcall] at hcall'
    cases hcall'
    exact Except.ok.inj (hprepared.symm.trans hprepared')

def heardIn (phase : Nat) (received : List (Nat × Except Fault (Value F))) : Nat := received.countP fun r => r.1 = phase

/-- What holds of a side as the receiver of another's calls. -/
structure Side.Heard (host : Host F) (side peer : Side F) : Prop where
  values : ∀ (i phase : Nat) (v : Value F), side.received[i]? = some (phase, Except.ok v) →
    ∃ call : Call F, peer.sent[i]? = some call ∧ call.value = v ∧ call.channel.phaseIndex = phase
  final : side.received.Pairwise fun a b => b.2.isOk → a.2.isOk
  past : ∀ r ∈ side.received, r.1 ≤ side.party.channel.phaseIndex
  live : side.party.channel.poisoned = false → (∀ r ∈ side.received, r.2.isOk = true) ∧
    side.party.channel.rx = side.received.length ∧
    side.party.channel.phaseRx = heardIn side.party.channel.phaseIndex side.received ∧
    side.party.taken = (stream host (peer.sent.take side.received.length)).length

variable {side peer : Side F}

/-- What `send` leaves of its side: the call, and its packets or some of them. -/
theorem Sound.send_cases (host : Host F) (side : Side F) (early : Option Fault) (sending : Nat → Sending) (late : Option Fault)
    (value : Value F) :
    (∃ raw b, prepared host side.party.channel value = .ok raw ∧ side.send host early sending late value =
      { side with party := side.party.Sent b raw, sent := side.sent ++ [⟨side.party.channel, value, true⟩] }) ∨
    ∃ n b packets, side.send host early sending late value =
      { side with party := side.party.poison n b 0 packets, sent := side.sent ++ [⟨side.party.channel, value, false⟩] } ∧
      (packets = [] ∨ ∃ raw k, prepared host side.party.channel value = .ok raw ∧
        packets = (packetsOf side.party.channel.tx raw).take k) := by
  have h := send_spec host side.party early sending late value side.party rfl
  cases hr : (QuotaBridge.send host early sending late value).from side.party with
  | mk r q =>
    rw [hr] at h
    cases r with
    | ok u =>
      obtain ⟨raw, b, hprepared, rfl⟩ := h
      exact .inl ⟨raw, b, hprepared, by rw [Side.send, hr]; rfl⟩
    | error fault =>
      obtain ⟨n, b, packets, rfl, hpackets⟩ := h
      exact .inr ⟨n, b, packets, by rw [Side.send, hr]; rfl, hpackets⟩

theorem take_snoc {α : Type} {xs : List α} {x : α} {k : Nat} (h : k ≤ xs.length) : (xs ++ [x]).take k = xs.take k :=
  List.take_append_of_le_length h

theorem Call.Placed.snoc {calls : List (Call F)} {k : Nat} {call : Call F} (h : call.Placed version session calls k)
    (hk : k ≤ calls.length) (new : Call F) : call.Placed version session (calls ++ [new]) k :=
  { h with order := by rw [take_snoc hk]; exact h.order }

theorem inPhase_snoc (phase : Nat) (calls : List (Call F)) (call : Call F) :
    inPhase phase (calls ++ [call]) = inPhase phase calls + if call.channel.phaseIndex = phase then 1 else 0 := by
  simp [inPhase, List.countP_append, List.countP_singleton]

/-- The calls of a side that makes one more. -/
theorem Side.Sound.calls_snoc (h : side.Sound host version session) {value : Value F} (hv : value.WF) (accepted : Bool) {k : Nat}
    {call : Call F} (hcall : (side.sent ++ [⟨side.party.channel, value, accepted⟩])[k]? = some call) :
    call.Placed version session (side.sent ++ [⟨side.party.channel, value, accepted⟩]) k := by
  obtain hold | ⟨rfl, rfl⟩ := getElem?_snoc hcall
  · obtain ⟨hk, -⟩ := List.getElem?_eq_some_iff.mp hold
    exact (h.calls k call hold).snoc hk.le _
  · refine ⟨h.ofVersion, h.ofSession, h.phased, hv, fun hlive => ?_⟩
    obtain ⟨htx, hphase, -⟩ := h.live hlive
    rw [take_snoc le_rfl, List.take_length]
    exact ⟨htx, hphase⟩

theorem stream_take_snoc (calls : List (Call F)) (call : Call F) :
    stream host ((calls ++ [call]).take (calls.length + 1)) = stream host calls ++ packetsOf calls.length (call.text host) := by
  rw [List.take_of_length_le (by simp), stream_snoc]

/-- One more call leaves what holds of the earlier ones. -/
theorem Side.Sound.accepted_snoc (h : side.Sound host version session) (call : Call F) {out : List Bytes}
    (hout : side.party.out <+: out) {k : Nat} {old : Call F} (hk : side.sent[k]? = some old) (hacc : old.accepted = true) :
    (∃ raw, prepared host old.channel old.value = .ok raw) ∧ stream host ((side.sent ++ [call]).take (k + 1)) <+: out := by
  obtain ⟨hlt, -⟩ := List.getElem?_eq_some_iff.mp hk
  rw [take_snoc hlt]
  exact ⟨(h.accepted k old hk hacc).1, (h.accepted k old hk hacc).2.trans hout⟩

theorem Side.Sound.send (h : side.Sound host version session) (early : Option Fault) (sending : Nat → Sending)
    (late : Option Fault) {value : Value F} (hv : value.WF) :
    (side.send host early sending late value).Sound host version session := by
  have hpast : ∀ (accepted : Bool), ∀ call ∈ side.sent ++ [⟨side.party.channel, value, accepted⟩],
      call.channel.phaseIndex ≤ side.party.channel.phaseIndex := by
    intro accepted call hcall
    rcases List.mem_append.mp hcall with hold | hnew
    · exact h.past call hold
    · rw [List.mem_singleton.mp hnew]
  obtain ⟨raw, b, hprepared, heq⟩ | ⟨n, b, packets, heq, hpackets⟩ := Sound.send_cases host side early sending late value
  · rw [heq]
    obtain ⟨hlive, -⟩ := prepared_ok hprepared
    obtain ⟨htx, hphase, hout⟩ := h.live hlive
    have htext : (⟨side.party.channel, value, true⟩ : Call F).text host = raw := text_prepared hprepared
    have hnow : (side.party.Sent b raw).out = stream host (side.sent ++ [⟨side.party.channel, value, true⟩]) := by
      rw [stream_snoc, htext, ← hout, ← htx]
      rfl
    refine ⟨h.ofVersion, h.ofSession, ⟨h.phased.bound, h.phased.one⟩, fun k call hcall => h.calls_snoc hv true hcall, hpast true, ?_, ?_, ?_⟩
    · exact hnow ▸ List.prefix_rfl
    · intro _
      refine ⟨?_, ?_, hnow⟩
      · show side.party.channel.tx + 1 = _
        rw [htx, List.length_append, List.length_singleton]
      · show side.party.channel.phaseTx + 1 = inPhase side.party.channel.phaseIndex _
        rw [hphase, inPhase_snoc, if_pos rfl]
    · intro k call hcall hacc
      obtain hold | ⟨rfl, rfl⟩ := getElem?_snoc hcall
      · exact h.accepted_snoc _ ⟨_, rfl⟩ hold hacc
      · exact ⟨⟨raw, hprepared⟩, [], by rw [List.append_nil, stream_take_snoc, ← stream_snoc, ← hnow]⟩
  · rw [heq]
    have hcases : packets = [] ∨ side.party.out = stream host side.sent ∧
        ∃ k, packets = (packetsOf side.sent.length ((⟨side.party.channel, value, false⟩ : Call F).text host)).take k := by
      rcases hpackets with rfl | ⟨raw, k, hprepared, rfl⟩
      · exact .inl rfl
      · obtain ⟨hlive, -⟩ := prepared_ok hprepared
        obtain ⟨htx, -, hout⟩ := h.live hlive
        have htext : (⟨side.party.channel, value, false⟩ : Call F).text host = raw := text_prepared hprepared
        exact .inr ⟨hout, k, by rw [htx, htext]⟩
    refine ⟨h.ofVersion, h.ofSession, ⟨h.phased.bound, h.phased.one⟩, fun k call hcall => h.calls_snoc hv false hcall, hpast false, ?_, ?_, ?_⟩
    · show side.party.out ++ packets <+: _
      rw [stream_snoc]
      rcases hcases with rfl | ⟨hout, k, rfl⟩
      · rw [List.append_nil]
        exact h.out.trans (List.prefix_append _ _)
      · rw [hout]
        exact (List.prefix_append_right_inj _).mpr (List.take_prefix _ _)
    · exact fun hlive => nomatch hlive
    · intro k call hcall hacc
      obtain hold | ⟨rfl, rfl⟩ := getElem?_snoc hcall
      · exact h.accepted_snoc _ (List.prefix_append _ _) hold hacc
      · cases hacc

/-- What a call that puts nothing on the wire leaves of a sender. -/
theorem Side.Sound.keep (h : side.Sound host version session) {party : Party} {received : List (Nat × Except Fault (Value F))}
    (hversion : party.channel.version = side.party.channel.version) (hsession : party.channel.session = side.party.channel.session)
    (hphase : party.channel.phaseIndex = side.party.channel.phaseIndex) (hout : party.out = side.party.out)
    (hlive : party.channel.poisoned = false → side.party.channel.poisoned = false ∧ party.channel.tx = side.party.channel.tx ∧
      party.channel.phaseTx = side.party.channel.phaseTx) :
    Side.Sound host version session { side with party := party, received := received } where
  ofVersion := hversion.trans h.ofVersion
  ofSession := hsession.trans h.ofSession
  phased := by
    have hp := h.phased
    exact ⟨hphase ▸ hp.bound, fun hone => hphase ▸ hp.one (hversion ▸ hone)⟩
  calls := h.calls
  past call hcall := hphase ▸ h.past call hcall
  out := hout ▸ h.out
  live hl := by
    obtain ⟨hold, htx, hphaseTx⟩ := hlive hl
    show party.channel.tx = _ ∧ party.channel.phaseTx = inPhase party.channel.phaseIndex _ ∧ party.out = _
    rw [htx, hphaseTx, hphase, hout]
    exact h.live hold
  accepted k call hcall hacc := hout ▸ h.accepted k call hcall hacc

/-! ## What is received -/

/-- What `receive` leaves of its side: the value of the call in its place, or a
poisoned party. -/
theorem Sound.receive_cases (hpeer : peer.Sound host version session) (hside : side.Sound host version session)
    (early : Option Fault) (arrivals : List Arrival) (late : Option Fault) :
    (∃ call raw, peer.sent[side.party.channel.rx]? = some call ∧ prepared host call.channel call.value = .ok raw ∧
      call.channel.phaseIndex = side.party.channel.phaseIndex ∧ side.party.channel.poisoned = false ∧
      (arrivals.take (fragments raw)).map (·.deliver peer.party.out) = (packetsOf side.party.channel.rx raw).map .ok ∧
      (side.party.channel.charged (fragments raw) (bytesFrom raw 0)).within = true ∧
      side.receive host early peer.party.out arrivals late =
        { side with party := side.party.Received raw
                    received := side.received ++ [(side.party.channel.phaseIndex, .ok call.value)] }) ∨
    ∃ n b k fault, side.receive host early peer.party.out arrivals late =
      { side with party := side.party.poison n b k []
                  received := side.received ++ [(side.party.channel.phaseIndex, .error fault)] } := by
  have h := receive_spec host hpeer.messages side.party early arrivals late side.party rfl
  cases hr : (QuotaBridge.receive host early peer.party.out arrivals late).from side.party with
  | mk r q =>
    rw [hr] at h
    cases r with
    | ok value =>
      obtain ⟨hlive, raw, read, ⟨call, hcall, hprepared⟩, hload, hopened, rfl, hwhole, hfits⟩ := h
      obtain ⟨-, -, -, env, henv, hraw⟩ := prepared_ok hprepared
      obtain ⟨hints, rfl, -⟩ := canonical_ok hraw
      have hplaced := hpeer.calls _ _ hcall
      -- The text the peer has printed is read back as it was.
      obtain rfl := load_wire_eq (envelope_wf hplaced.wf henv) hints hload
      obtain ⟨rfl, -, hphase⟩ := opened_envelope hplaced.wf henv hopened hplaced.phased hside.phased
      exact .inl ⟨call, _, hcall, hprepared, hphase, hlive, hwhole, hfits, by rw [Side.receive, hr]⟩
    | error fault =>
      obtain ⟨n, b, k, rfl⟩ := h
      exact .inr ⟨n, b, k, fault, by rw [Side.receive, hr]⟩

theorem Side.Sound.receive (h : side.Sound host version session) (hpeer : peer.Sound host version session) (early : Option Fault)
    (arrivals : List Arrival) (late : Option Fault) :
    (side.receive host early peer.party.out arrivals late).Sound host version session := by
  obtain ⟨call, raw, -, -, -, hlive, -, -, heq⟩ | ⟨n, b, k, fault, heq⟩ := Sound.receive_cases hpeer h early arrivals late
  · rw [heq]
    exact h.keep rfl rfl rfl rfl fun hl => ⟨hl, rfl, rfl⟩
  · rw [heq]
    exact h.keep rfl rfl rfl (List.append_nil _) fun hl => nomatch hl

/-- What `advance_phase` leaves of its side. -/
theorem advancePhase_cases (side : Side F) (early : Option Fault) (phase : String) :
    (side.party.channel.poisoned = false ∧ side.party.channel.version = .two ∧ side.party.channel.phaseIndex + 1 < 3 ∧
      side.advancePhase early phase = { side with party := side.party.Advanced }) ∨
    side.advancePhase early phase = { side with party := side.party.poison 0 0 0 [] } := by
  have h := advancePhase_spec side.party early phase side.party rfl
  cases hr : (QuotaBridge.advancePhase early phase).from side.party with
  | mk r q =>
    rw [hr] at h
    cases r with
    | ok u =>
      obtain ⟨hlive, hversion, hbound, rfl⟩ := h
      exact .inl ⟨hlive, hversion, hbound, by rw [Side.advancePhase, hr]⟩
    | error fault => exact .inr (by rw [Side.advancePhase, hr, h])

/-- Nothing has been sent in a phase that is still to come. -/
theorem inPhase_next {phase : Nat} {calls : List (Call F)} (h : ∀ call ∈ calls, call.channel.phaseIndex ≤ phase) :
    inPhase (phase + 1) calls = 0 := by
  rw [inPhase, List.countP_eq_zero]
  intro call hcall
  have hle := h call hcall
  simp only [decide_eq_true_eq]
  omega

theorem Side.Sound.advancePhase (h : side.Sound host version session) (early : Option Fault) (phase : String) :
    (side.advancePhase early phase).Sound host version session := by
  obtain ⟨hlive, hversion, hbound, heq⟩ | heq := advancePhase_cases side early phase
  · rw [heq]
    refine ⟨h.ofVersion, h.ofSession, ⟨hbound, ?_⟩, h.calls, ?_, h.out, ?_, h.accepted⟩
    · exact fun hone => absurd (hversion.symm.trans hone) (by decide)
    · exact fun call hcall => (h.past call hcall).trans (Nat.le_succ _)
    · intro _
      obtain ⟨htx, -, hout⟩ := h.live hlive
      exact ⟨htx, (inPhase_next h.past).symm, hout⟩
  · rw [heq]
    exact h.keep rfl rfl rfl (List.append_nil _) fun hl => nomatch hl

/-- A poisoned receiver returns nothing more. -/
theorem Side.Heard.error (h : side.Heard host peer) (n b k : Nat) (fault : Fault) :
    Side.Heard host { side with party := side.party.poison n b k []
                                received := side.received ++ [(side.party.channel.phaseIndex, .error fault)] } peer where
  values i phase v hv := by
    obtain hold | ⟨-, hnew⟩ := getElem?_snoc hv
    · exact h.values i phase v hold
    · cases hnew
  final := by
    refine List.pairwise_append.mpr ⟨h.final, List.pairwise_singleton _ _, ?_⟩
    intro a _ b hb hok
    rw [List.mem_singleton.mp hb] at hok
    cases hok
  past r hr := by
    rcases List.mem_append.mp hr with hold | hnew
    · exact h.past r hold
    · rw [List.mem_singleton.mp hnew]
      exact le_rfl
  live hl := nomatch hl

theorem Side.Heard.value (h : side.Heard host peer) {call : Call F} {raw : Bytes}
    (hcall : peer.sent[side.party.channel.rx]? = some call) (hprepared : prepared host call.channel call.value = .ok raw)
    (hphase : call.channel.phaseIndex = side.party.channel.phaseIndex) (hlive : side.party.channel.poisoned = false) :
    Side.Heard host { side with party := side.party.Received raw
                                received := side.received ++ [(side.party.channel.phaseIndex, .ok call.value)] } peer := by
  obtain ⟨hall, hrx, hphaseRx, htaken⟩ := h.live hlive
  have hall' : ∀ r ∈ side.received ++ [(side.party.channel.phaseIndex, Except.ok call.value)], r.2.isOk = true := by
    intro r hr
    rcases List.mem_append.mp hr with hold | hnew
    · exact hall r hold
    · rw [List.mem_singleton.mp hnew]
      rfl
  obtain ⟨hlt, hget⟩ := List.getElem?_eq_some_iff.mp hcall
  rw [hrx] at hcall
  refine ⟨?_, ?_, ?_, fun _ => ⟨hall', ?_, ?_, ?_⟩⟩
  · intro i phase v hv
    obtain hold | ⟨rfl, hnew⟩ := getElem?_snoc hv
    · exact h.values i phase v hold
    · cases hnew
      exact ⟨call, hcall, rfl, hphase⟩
  · refine List.pairwise_append.mpr ⟨h.final, List.pairwise_singleton _ _, ?_⟩
    exact fun a ha _ _ _ => hall a ha
  · intro r hr
    rcases List.mem_append.mp hr with hold | hnew
    · exact h.past r hold
    · rw [List.mem_singleton.mp hnew]
      exact le_rfl
  · show side.party.channel.rx + 1 = _
    rw [hrx, List.length_append, List.length_singleton]
  · show side.party.channel.phaseRx + 1 = heardIn side.party.channel.phaseIndex _
    rw [hphaseRx, heardIn, heardIn, List.countP_append, List.countP_singleton]
    simp
  · show side.party.taken + fragments raw = _
    have htake : peer.sent.take (side.received.length + 1) = peer.sent.take side.received.length ++ [call] := by
      rw [List.take_add_one, hcall]
      rfl
    have hlen : (peer.sent.take side.received.length).length = side.received.length := by
      rw [List.length_take]
      omega
    rw [List.length_append, List.length_singleton, htake, stream_snoc, text_prepared hprepared, List.length_append, ← htaken]
    simp [packetsOf]

/-- What a call of its own that receives nothing leaves of a receiver. -/
theorem Side.Heard.keep (h : side.Heard host peer) {party : Party} {sent : List (Call F)}
    (hlive : party.channel.poisoned = false → side.party.channel.poisoned = false ∧ party.channel.rx = side.party.channel.rx ∧
      party.channel.phaseRx = side.party.channel.phaseRx ∧ party.taken = side.party.taken)
    (hphase : party.channel.phaseIndex = side.party.channel.phaseIndex) :
    Side.Heard host { side with party := party, sent := sent } peer where
  values := h.values
  final := h.final
  past r hr := hphase ▸ h.past r hr
  live hl := by
    obtain ⟨hold, hrx, hphaseRx, htaken⟩ := hlive hl
    show _ ∧ party.channel.rx = _ ∧ party.channel.phaseRx = heardIn party.channel.phaseIndex _ ∧ party.taken = _
    rw [hrx, hphaseRx, htaken, hphase]
    exact h.live hold

theorem Side.Heard.advanced (h : side.Heard host peer) (hlive : side.party.channel.poisoned = false) :
    Side.Heard host { side with party := side.party.Advanced } peer where
  values := h.values
  final := h.final
  past r hr := (h.past r hr).trans (Nat.le_succ _)
  live _ := by
    obtain ⟨hall, hrx, -, htaken⟩ := h.live hlive
    refine ⟨hall, hrx, ?_, htaken⟩
    show 0 = heardIn (side.party.channel.phaseIndex + 1) side.received
    symm
    rw [heardIn, List.countP_eq_zero]
    intro r hr
    have hle := h.past r hr
    simp only [decide_eq_true_eq]
    omega

theorem Side.Heard.length_le (h : side.Heard host peer) (hlive : side.party.channel.poisoned = false) :
    side.received.length ≤ peer.sent.length := by
  obtain ⟨hall, -⟩ := h.live hlive
  by_contra hlt
  have hindex : peer.sent.length < side.received.length := by omega
  have hget := List.getElem?_eq_getElem hindex
  have hok := hall _ (List.mem_of_getElem? hget)
  cases hr : side.received[peer.sent.length] with
  | mk phase r =>
    rw [hr] at hget hok
    cases r with
    | error fault => cases hok
    | ok v =>
      obtain ⟨call, hcall, -⟩ := h.values _ _ v hget
      simp at hcall

/-- What a receiver has does not change with what its peer sends next. -/
theorem Side.Heard.grow (h : side.Heard host peer) {party : Party} {received : List (Nat × Except Fault (Value F))}
    (more : List (Call F)) : Side.Heard host side { party := party, sent := peer.sent ++ more, received := received } where
  values i phase v hv := by
    obtain ⟨call, hcall, hvalue⟩ := h.values i phase v hv
    exact ⟨call, getElem?_keep hcall more, hvalue⟩
  final := h.final
  past := h.past
  live hl := by
    obtain ⟨hall, hrx, hphaseRx, htaken⟩ := h.live hl
    refine ⟨hall, hrx, hphaseRx, ?_⟩
    rw [htaken, List.take_append_of_le_length (h.length_le hl)]

/-! ## Any run -/

/-- What holds of the two sides. -/
structure Inv (host : Host F) (version : Version) (session : String) (s : State F) : Prop where
  sound : ∀ who, (s.side who).Sound host version session
  heard : ∀ who, (s.side who).Heard host (s.side who.other)

theorem side_set (s : State F) (who : Peer) (side : Side F) : (s.set who side).side who = side := by cases who <;> rfl

theorem other_set (s : State F) (who : Peer) (side : Side F) : (s.set who side).side who.other = s.side who.other := by
  cases who <;> rfl

theorem other_other (who : Peer) : who.other.other = who := by cases who <;> rfl

theorem eq_or_other (who who' : Peer) : who' = who ∨ who' = who.other := by cases who <;> cases who' <;> simp [Peer.other]

theorem Inv.set {s : State F} (h : Inv host version session s) {who : Peer} {side : Side F}
    (hsound : side.Sound host version session) (hheard : side.Heard host (s.side who.other))
    (hother : (s.side who.other).Heard host side) : Inv host version session (s.set who side) where
  sound who' := by
    obtain rfl | rfl := eq_or_other who who'
    · rw [side_set]
      exact hsound
    · rw [other_set]
      exact h.sound who.other
  heard who' := by
    obtain rfl | rfl := eq_or_other who who'
    · rw [side_set, other_set]
      exact hheard
    · rw [other_set, other_other, side_set]
      exact hother

theorem send_inv {s : State F} (h : Inv host version session s) (who : Peer) (early : Option Fault) (sending : Nat → Sending)
    (late : Option Fault) {value : Value F} (hv : value.WF) :
    Inv host version session (s.set who ((s.side who).send host early sending late value)) := by
  have hsound := (h.sound who).send early sending late hv
  have hother := h.heard who.other
  rw [other_other] at hother
  obtain ⟨raw, b, -, heq⟩ | ⟨n, b, packets, heq, -⟩ := Sound.send_cases host (s.side who) early sending late value
  · rw [heq] at hsound ⊢
    exact h.set hsound ((h.heard who).keep (fun hl => ⟨hl, rfl, rfl, rfl⟩) rfl) (hother.grow _)
  · rw [heq] at hsound ⊢
    exact h.set hsound ((h.heard who).keep (fun hl => nomatch hl) rfl) (hother.grow _)

theorem receive_inv {s : State F} (h : Inv host version session s) (who : Peer) (early : Option Fault) (arrivals : List Arrival)
    (late : Option Fault) :
    Inv host version session (s.set who ((s.side who).receive host early (s.side who.other).party.out arrivals late)) := by
  have hsound := (h.sound who).receive (h.sound who.other) early arrivals late
  have hother := h.heard who.other
  rw [other_other] at hother
  obtain ⟨call, raw, hcall, hprepared, hphase, hlive, -, -, heq⟩ | ⟨n, b, k, fault, heq⟩ :=
    Sound.receive_cases (h.sound who.other) (h.sound who) early arrivals late
  · rw [heq] at hsound ⊢
    exact h.set hsound ((h.heard who).value hcall hprepared hphase hlive) (by simpa using hother.grow [])
  · rw [heq] at hsound ⊢
    exact h.set hsound ((h.heard who).error n b k fault) (by simpa using hother.grow [])

theorem advancePhase_inv {s : State F} (h : Inv host version session s) (who : Peer) (early : Option Fault) (phase : String) :
    Inv host version session (s.set who ((s.side who).advancePhase early phase)) := by
  have hsound := (h.sound who).advancePhase early phase
  have hother := h.heard who.other
  rw [other_other] at hother
  obtain ⟨hlive, -, -, heq⟩ | heq := advancePhase_cases (s.side who) early phase
  · rw [heq] at hsound ⊢
    exact h.set hsound ((h.heard who).advanced hlive) (by simpa using hother.grow [])
  · rw [heq] at hsound ⊢
    exact h.set hsound ((h.heard who).keep (fun hl => nomatch hl) rfl) (by simpa using hother.grow [])

theorem step_inv (s : State F) (e : Event F) (h : Inv host version session s) : Inv host version session (step host s e) := by
  cases e with
  | send who early sending late value => exact send_inv h who early sending late value.2
  | receive who early arrivals late => exact receive_inv h who early arrivals late
  | advancePhase who early phase => exact advancePhase_inv h who early phase

theorem start_inv (host : Host F) (version : Version) (session : String) : Inv host version session (start version session) := by
  have hsound : (Side.start version session : Side F).Sound host version session :=
    ⟨rfl, rfl, ⟨Nat.zero_lt_succ 2, fun _ => rfl⟩, nofun, nofun, List.prefix_rfl, fun _ => ⟨rfl, rfl, rfl⟩, nofun⟩
  have hheard : (Side.start version session : Side F).Heard host (.start version session) :=
    ⟨nofun, .nil, nofun, fun _ => ⟨nofun, rfl, rfl, rfl⟩⟩
  exact ⟨fun who => by cases who <;> exact hsound, fun who => by cases who <;> exact hheard⟩

theorem run_inv (host : Host F) (version : Version) (session : String) (events : List (Event F)) :
    Inv host version session (exec (step host) (start version session) events) :=
  exec_inv (fun s e h => step_inv s e h) (start_inv host version session)

/-! ### A deviation -/

/-- The packets the wire hands over first are not those of the next call. -/
def Deviates (host : Host F) (side peer : Side F) (arrivals : List Arrival) : Prop :=
  ∀ raw, Message host peer.sent side.party.channel.rx raw →
    (arrivals.take (fragments raw)).map (·.deliver peer.party.out) ≠ (packetsOf side.party.channel.rx raw).map .ok

theorem deviates_poisons (h : peer.Sound host version session) (hside : side.Sound host version session) (early : Option Fault)
    {arrivals : List Arrival} (late : Option Fault) (hdev : Deviates host side peer arrivals) :
    let after := side.receive host early peer.party.out arrivals late
    after.party.channel.poisoned = true ∧ ∃ phase fault, after.received = side.received ++ [(phase, .error fault)] := by
  obtain ⟨call, raw, hcall, hprepared, -, -, hwhole, -⟩ | ⟨n, b, k, fault, heq⟩ := Sound.receive_cases h hside early arrivals late
  · exact absurd hwhole (hdev raw ⟨call, hcall, hprepared⟩)
  · rw [heq]
    exact ⟨rfl, _, fault, rfl⟩

/-- A side is poisoned and has returned nothing since it had `n` calls of `receive`. -/
structure Side.Silent (side : Side F) (n : Nat) : Prop where
  poisoned : side.party.channel.poisoned = true
  nothing : ∀ i r, side.received[i]? = some r → n ≤ i → r.2.isOk = false

theorem silent_step {s : State F} {who : Peer} {n : Nat} (hi : Inv host version session s) (h : (s.side who).Silent n)
    (e : Event F) : ((step host s e).side who).Silent n := by
  have hset : ∀ (by' : Peer) (side : Side F), (by' = who → side.Silent n) → ((s.set by' side).side who).Silent n := by
    intro by' side hs
    obtain rfl | rfl := eq_or_other by' who
    · rw [side_set]
      exact hs rfl
    · rw [other_set]
      exact h
  cases e with
  | send by' early sending late value =>
    refine hset by' _ ?_
    rintro rfl
    obtain ⟨raw, b, hprepared, -⟩ | ⟨m, b, packets, heq, -⟩ := Sound.send_cases host (s.side by') early sending late value.1
    · exact absurd (prepared_ok hprepared).1 (by simp [h.poisoned])
    · rw [heq]
      exact ⟨rfl, h.nothing⟩
  | receive by' early arrivals late =>
    refine hset by' _ ?_
    rintro rfl
    obtain ⟨call, raw, -, -, -, hlive, -⟩ | ⟨m, b, k, fault, heq⟩ :=
      Sound.receive_cases (hi.sound by'.other) (hi.sound by') early arrivals late
    · exact absurd hlive (by simp [h.poisoned])
    · rw [heq]
      refine ⟨rfl, fun i r hr hn => ?_⟩
      obtain hold | ⟨-, rfl⟩ := getElem?_snoc hr
      · exact h.nothing i r hold hn
      · rfl
  | advancePhase by' early phase =>
    refine hset by' _ ?_
    rintro rfl
    obtain ⟨hlive, -⟩ | heq := advancePhase_cases (s.side by') early phase
    · exact absurd hlive (by simp [h.poisoned])
    · rw [heq]
      exact ⟨rfl, h.nothing⟩

theorem silent_run {s : State F} {who : Peer} (hi : Inv host version session s) (hp : (s.side who).party.channel.poisoned = true)
    (events : List (Event F)) : ((exec (step host) s events).side who).Silent (s.side who).received.length := by
  refine (exec_inv (I := fun t => Inv host version session t ∧ (t.side who).Silent (s.side who).received.length)
    (fun t e h => ⟨step_inv t e h.1, silent_step h.1 h.2 e⟩) ⟨hi, hp, fun i r hr hn => ?_⟩).2
  rw [List.getElem?_eq_none hn] at hr
  cases hr

/-! ### A faithful wire -/

/-- The packets the peer has sent and the side has not taken, in their order. -/
def inTurn (side peer : Side F) : List Arrival :=
  (List.range' side.party.taken (peer.party.out.length - side.party.taken)).map .packet

/-- The next call of the peer's is one the side can receive: it was accepted in the
same phase, and is within what `_load` walks. -/
structure Receivable (host : Host F) (side peer : Side F) (call : Call F) : Prop where
  live : side.party.channel.poisoned = false
  next : peer.sent[side.received.length]? = some call
  accepted : call.accepted = true
  phase : call.channel.phaseIndex = side.party.channel.phaseIndex
  walked : ∀ env, envelope host call.channel call.value = .ok env → walk 20 1 env = .ok ()

/-- The packets of a call are within what is left of a side's totals. -/
def Fits (host : Host F) (side : Side F) (call : Call F) : Prop :=
  (side.party.channel.charged (fragments (call.text host)) (bytesFrom (call.text host) 0)).within = true

/-- The exchanges of a phase are as many as the peer's. -/
theorem heardIn_eq (h : side.Heard host peer) (hlive : side.party.channel.poisoned = false) (phase : Nat) :
    heardIn phase side.received = inPhase phase (peer.sent.take side.received.length) := by
  obtain ⟨hall, -⟩ := h.live hlive
  have hsame : side.received.map (·.1) = (peer.sent.take side.received.length).map (·.channel.phaseIndex) := by
    refine List.ext_getElem? fun i => ?_
    rw [List.getElem?_map, List.getElem?_map, List.getElem?_take]
    cases hr : side.received[i]? with
    | none =>
      have hle := List.getElem?_eq_none_iff.mp hr
      rw [if_neg (by omega)]
      rfl
    | some r =>
      obtain ⟨hlt, -⟩ := List.getElem?_eq_some_iff.mp hr
      have hok := hall r (List.mem_of_getElem? hr)
      obtain ⟨phase, r⟩ := r
      cases r with
      | error fault => cases hok
      | ok v =>
        obtain ⟨call, hcall, -, hphase⟩ := h.values i phase v hr
        rw [if_pos hlt, hcall, Option.map_some, Option.map_some, hphase]
  have hmap := congrArg (List.countP fun p => p = phase) hsame
  rw [List.countP_map, List.countP_map] at hmap
  exact hmap

/-- What arrives in turn is the next call. -/
theorem inTurn_whole (h : side.Heard host peer) (hlive : side.party.channel.poisoned = false) {raw : Bytes} {call : Call F}
    (hcall : peer.sent[side.received.length]? = some call) (hraw : call.text host = raw)
    (hout : stream host (peer.sent.take (side.received.length + 1)) <+: peer.party.out) :
    ((inTurn side peer).take (fragments raw)).map (·.deliver peer.party.out) = (packetsOf side.received.length raw).map .ok := by
  obtain ⟨-, -, -, htaken⟩ := h.live hlive
  have hlen := h.length_le hlive
  have htake : peer.sent.take (side.received.length + 1) = peer.sent.take side.received.length ++ [call] := by
    rw [List.take_add_one, hcall]
    rfl
  have hbefore : (peer.sent.take side.received.length).length = side.received.length := by
    rw [List.length_take]
    omega
  rw [htake, stream_snoc, hraw, hbefore] at hout
  obtain ⟨rest, hout⟩ := hout
  have hcount : (packetsOf side.received.length raw).length = fragments raw := by simp [packetsOf]
  have htotal := congrArg List.length hout
  simp only [List.length_append, hcount, ← htaken] at htotal
  have hget : ∀ i < fragments raw, peer.party.out[side.party.taken + i]? = some (packetAt side.received.length raw i) := by
    intro i hi
    rw [← hout, List.append_assoc, List.getElem?_append_right (by omega), ← htaken, Nat.add_sub_cancel_left,
      List.getElem?_append_left (by omega)]
    simp [packetsOf, hi]
  refine List.ext_getElem? fun i => ?_
  by_cases hi : i < fragments raw
  · have hsmall : (packetAt side.received.length raw i).length ≤ headerSize + chunk := by
      rw [length_packetAt]
      omega
    have hwire : i < peer.party.out.length - side.party.taken := by omega
    simp [inTurn, packetsOf, Arrival.deliver, hget i hi, hsmall, hi, hwire]
  · simp [inTurn, packetsOf, hi]

/-- **What was accepted, and fits, is returned.** -/
theorem receive_returns (hpeer : peer.Sound host version session) (hside : side.Sound host version session)
    (h : side.Heard host peer) {call : Call F} (hr : Receivable host side peer call) (hfits : Fits host side call) :
    side.receive host none peer.party.out (inTurn side peer) none =
      { side with party := side.party.Received (call.text host)
                  received := side.received ++ [(side.party.channel.phaseIndex, .ok call.value)] } := by
  obtain ⟨⟨raw, hprepared⟩, hout⟩ := hpeer.accepted _ _ hr.next hr.accepted
  have htext := text_prepared hprepared
  have hwhole := inTurn_whole h hr.live hr.next htext hout
  obtain ⟨hlive, hphaseTx, htx, env, henv, hraw⟩ := prepared_ok hprepared
  have hplaced := hpeer.calls _ _ hr.next
  obtain ⟨horder, hcount⟩ := hplaced.order hlive
  obtain ⟨-, hrx, hphaseRx, -⟩ := h.live hr.live
  have hsame : call.channel.version = side.party.channel.version := hplaced.ofVersion.trans hside.ofVersion.symm
  have hexchange : side.party.channel.phaseRx < 64 ∧ side.party.channel.rx < side.party.channel.version.exchanges := by
    constructor
    · rw [hphaseRx, heardIn_eq h hr.live, ← hr.phase, ← hcount]
      exact hphaseTx
    · rw [hrx, ← horder, ← hsame]
      exact htx
  obtain ⟨hints, rfl, hlen⟩ := canonical_ok hraw
  have hload := load_wire (envelope_wf hplaced.wf henv) hints hlen (hr.walked env henv)
  have hopened := opened_ok hplaced.wf henv hsame (hplaced.ofSession.trans hside.ofSession.symm) hr.phase
  have hs : Sendable side.received.length (wire host.floats env) :=
    hpeer.messages.sendable _ _ ⟨call, hr.next, hprepared⟩
  rw [Fits, htext] at hfits
  have hrun := receive_from host hs hrx hr.live hexchange hwhole hfits hload hopened
  rw [Side.receive, hrun, htext]

/-- What does not fit is not returned. -/
theorem received_fits (hpeer : peer.Sound host version session) (hside : side.Sound host version session)
    (h : side.Heard host peer) {call : Call F} (hr : Receivable host side peer call) (early : Option Fault)
    (arrivals : List Arrival) (late : Option Fault)
    (hreturn : (side.receive host early peer.party.out arrivals late).received =
      side.received ++ [(side.party.channel.phaseIndex, .ok call.value)]) : Fits host side call := by
  obtain ⟨-, hrx, -⟩ := h.live hr.live
  obtain ⟨call', raw, hcall, hprepared, -, -, -, hfits, -⟩ | ⟨n, b, k, fault, heq⟩ :=
    Sound.receive_cases hpeer hside early arrivals late
  · have hsame := hr.next
    rw [← hrx, hcall] at hsame
    cases hsame
    rw [Fits, text_prepared hprepared]
    exact hfits
  · rw [heq] at hreturn
    simp at hreturn

/-- **A value is returned in its order and its phase, a deviation is the end of the
receiver, and over a faithful wire what fits arrives.** -/
theorem lossless_or_poisoned (host : Host F) (version : Version) (session : String) (events : List (Event F)) (who : Peer) :
    let s := exec (step host) (start version session) events
    let side := s.side who
    let peer := s.side who.other
    (∀ (i phase : Nat) (v : Value F), side.received[i]? = some (phase, Except.ok v) →
      ∃ call : Call F, peer.sent[i]? = some call ∧ call.value = v ∧ call.channel.phaseIndex = phase) ∧
    (∀ early arrivals late, Deviates host side peer arrivals →
      let after := side.receive host early peer.party.out arrivals late
      after.party.channel.poisoned = true ∧ ∃ phase fault, after.received = side.received ++ [(phase, .error fault)]) ∧
    (side.party.channel.poisoned = true → ∀ more i r,
      ((exec (step host) s more).side who).received[i]? = some r → side.received.length ≤ i → r.2.isOk = false) ∧
    (∀ call, Receivable host side peer call →
      ((side.receive host none peer.party.out (inTurn side peer) none).received =
        side.received ++ [(side.party.channel.phaseIndex, Except.ok call.value)] ↔ Fits host side call)) := by
  intro s side peer
  have hi := run_inv host version session events
  refine ⟨(hi.heard who).values, ?_, ?_, ?_⟩
  · exact fun early arrivals late hdev => deviates_poisons (hi.sound who.other) (hi.sound who) early late hdev
  · exact fun hp more i r hr hn => (silent_run hi hp more).nothing i r hr hn
  · intro call hr
    constructor
    · exact received_fits (hi.sound who.other) (hi.sound who) (hi.heard who) hr none _ none
    · intro hfits
      rw [receive_returns (hi.sound who.other) (hi.sound who) (hi.heard who) hr hfits]

/-! ### The totals are of both directions -/

/-- `zlib` that stores. -/
def plain : Host Empty :=
  ⟨noFloats, nofun, nofun, id, ⟨id, fun raw _ => some ⟨raw, true, [], []⟩, fun _ _ _ => rfl⟩⟩

def zeros : String := "0000000000000000000000000000000000000000000000000000000000000000"

def letters (n : Nat) : Value Empty := .str (String.ofList (List.replicate n 'a'))

def lettersText (n : Nat) : Bytes :=
  wire noFloats (.obj [("schema", .str Version.one.schema), ("session", .str zeros), ("value", letters n)])

theorem length_dumpString_plain (n : Nat) : (dumpString true (String.ofList (List.replicate n 'a'))).length = n + 2 := by
  have hplain : escapeText true (List.replicate n 'a') = List.replicate n 'a' := by
    refine escapeText_plain fun c hc => ?_
    rw [List.eq_of_mem_replicate hc]
    decide
  rw [dumpString, String.toList_ofList, hplain, List.length_cons, List.length_append, List.length_replicate]
  rfl

theorem length_lettersText (n : Nat) : (lettersText n).length = n + 127 := by
  have hschema : (dumpString true "schema").length = 8 := by decide
  have hversion : (dumpString true Version.one.schema).length = 28 := by decide
  have hsession : (dumpString true "session").length = 9 := by decide
  have hzeros : (dumpString true zeros).length = 66 := by decide
  have hvalue : (dumpString true "value").length = 7 := by decide
  rw [lettersText, length_wire]
  simp only [dump, dumpFields, letters, List.length_cons, List.length_append, List.length_nil, length_dumpString_plain, hschema,
    hversion, hsession, hzeros, hvalue]
  omega

/-- The sizes of one value of these letters. -/
theorem lettersText_sizes {n : Nat} (hlow : 2095490 ≤ n) (hhigh : n ≤ 2097025) :
    fragments (lettersText n) = 128 ∧ 2097153 ≤ bytesFrom (lettersText n) 0 ∧ bytesFrom (lettersText n) 0 ≤ 2098688 ∧
      (lettersText n).length ≤ limit := by
  have hlen := length_lettersText n
  have hfragments : fragments (lettersText n) = 128 := by
    rw [fragments, hlen, chunk]
    omega
  rw [bytesFrom, hfragments, hlen, headerSize, limit, Nat.zero_mul]
  omega

/-- The envelope of the letters. -/
def lettersValue (n : Nat) : Value Empty :=
  .obj [("schema", .str Version.one.schema), ("session", .str zeros), ("value", letters n)]

theorem canonical_letters {n : Nat} (hhigh : n ≤ 2097025) :
    canonical noFloats (lettersValue n) limit = .ok (lettersText n) := by
  have hlen : (lettersText n).length ≤ limit := by
    rw [length_lettersText, limit]
    omega
  exact canonical_wire rfl hlen

theorem envelope_letters {n : Nat} {c : Channel} (hversion : c.version = .one) (hsession : c.session = zeros) :
    envelope plain c (letters n) = .ok (lettersValue n) := by
  rw [envelope, hversion, hsession]
  rfl

theorem prepared_letters {n : Nat} (hhigh : n ≤ 2097025) {c : Channel} (hversion : c.version = .one) (hsession : c.session = zeros)
    (hlive : c.poisoned = false) (hphase : c.phaseTx < 64) (htx : c.tx < 64) :
    prepared plain c (letters n) = .ok (lettersText n) := by
  have hexchanges : c.tx < c.version.exchanges := by
    rw [hversion]
    exact htx
  simp only [prepared, bind_ok, require_ok, exists_unit, Bool.and_eq_true, Bool.not_eq_true', decide_eq_true_eq]
  exact ⟨⟨hlive, hphase, hexchanges⟩, lettersValue n, envelope_letters hversion hsession, canonical_letters hhigh⟩

def sendLetters (who : Peer) (n : Nat) : Event Empty := .send who none (fun _ => .done) none ⟨letters n, trivial⟩

/-- A channel that has sent `k` times. -/
def Channel.Sends (c : Channel) (k b : Nat) : Prop :=
  c = { Channel.start .one zeros with tx := k, total := k * b, packets := k * 128, phaseTx := k, phaseTotal := k * b, phasePackets := k * 128 }

theorem send_letters {n : Nat} (hlow : 2095490 ≤ n) (hhigh : n ≤ 2097025) {side : Side Empty} {k : Nat} (hk : k < 7)
    (hside : side.party.channel.Sends k (bytesFrom (lettersText n) 0)) :
    let after := side.send plain none (fun _ => .done) none (letters n)
    after.party.channel.Sends (k + 1) (bytesFrom (lettersText n) 0) ∧ after.received = side.received ∧
      after.sent = side.sent ++ [⟨side.party.channel, letters n, true⟩] := by
  obtain ⟨hfragments, -, hbytes, -⟩ := lettersText_sizes hlow hhigh
  have hprepared : prepared plain side.party.channel (letters n) = .ok (lettersText n) := by
    rw [hside]
    exact prepared_letters hhigh rfl rfl rfl (show k < 64 by omega) (show k < 64 by omega)
  have hfits : (side.party.channel.charged (fragments (lettersText n)) (bytesFrom (lettersText n) 0)).within = true := by
    rw [hside, within_iff, hfragments]
    simp only [Channel.charged, Channel.start, Version.phases, limit]
    have hmul : k * bytesFrom (lettersText n) 0 ≤ 6 * 2098688 := Nat.mul_le_mul (by omega) hbytes
    omega
  have hsend := send_from plain hprepared hfits
  have hcount : (packetsOf side.party.channel.tx (lettersText n)).length = 128 := by simp [packetsOf, hfragments]
  refine ⟨?_, rfl, ?_⟩
  · rw [Side.send, hsend, Channel.Sends]
    dsimp only [Party.Sent, Party.Out]
    rw [hcount, hside]
    simp only [Channel.charged, Nat.add_mul, Nat.one_mul]
  · rw [Side.send, hsend]
    rfl

theorem sends_run {n : Nat} (hlow : 2095490 ≤ n) (hhigh : n ≤ 2097025) {k : Nat} (hk : k ≤ 7) :
    ∃ side, exec (step plain) (start .one zeros) (List.replicate k (sendLetters .right n)) = ⟨.start .one zeros, side⟩ ∧
      side.party.channel.Sends k (bytesFrom (lettersText n) 0) ∧ side.received = [] := by
  induction k with
  | zero =>
    refine ⟨.start .one zeros, rfl, ?_, rfl⟩
    simp [Channel.Sends, Side.start, Channel.start]
  | succ k ih =>
    obtain ⟨side, hrun, hside, hreceived⟩ := ih (by omega)
    obtain ⟨hsends, hsame, -⟩ := send_letters hlow hhigh (by omega) hside
    refine ⟨_, ?_, hsends, hsame.trans hreceived⟩
    rw [List.replicate_succ', exec_snoc, hrun]
    rfl

/-- Seven large values one way leave no room for one the other way. -/
theorem both_directions {n : Nat} (hlow : 2095490 ≤ n) (hhigh : n ≤ 2097025) :
    let s := exec (step plain) (start .one zeros) (List.replicate 7 (sendLetters .right n) ++ [sendLetters .left n])
    ∃ call, Receivable plain s.right s.left call ∧ ¬ Fits plain s.right call := by
  intro s
  obtain ⟨side, hrun, hside, hreceived⟩ := sends_run hlow hhigh (k := 7) le_rfl
  obtain ⟨hfragments, hbytes, -, -⟩ := lettersText_sizes hlow hhigh
  have hstart : (Side.start .one zeros : Side Empty).party.channel.Sends 0 (bytesFrom (lettersText n) 0) := by
    simp [Channel.Sends, Side.start, Channel.start]
  obtain ⟨-, -, hsent⟩ := send_letters hlow hhigh (by omega) hstart
  have hs : s = ⟨(Side.start .one zeros).send plain none (fun _ => .done) none (letters n), side⟩ := by
    show exec (step plain) _ (_ ++ [_]) = _
    rw [exec_snoc, hrun]
    rfl
  have hright : s.right = side := by rw [hs]
  have hleft : s.left.sent = [⟨.start .one zeros, letters n, true⟩] := by rw [hs, hsent]; rfl
  have hchannel : side.party.channel.phaseIndex = 0 := by rw [hside]; rfl
  refine ⟨⟨.start .one zeros, letters n, true⟩, ⟨?_, ?_, rfl, ?_, ?_⟩, ?_⟩
  · rw [hright, hside]
    rfl
  · rw [hright, hreceived, hleft]
    rfl
  · rw [hright, hchannel]
    rfl
  · intro env henv
    rw [envelope_letters rfl rfl] at henv
    cases henv
    rfl
  · have htext : (⟨.start .one zeros, letters n, true⟩ : Call Empty).text plain = lettersText n :=
      text_prepared (prepared_letters hhigh rfl rfl rfl (Nat.zero_lt_succ 63) (Nat.zero_lt_succ 63))
    rw [Fits, hright, htext, hside, within_iff, hfragments]
    simp only [Channel.charged, Channel.start, Version.phases, limit]
    omega

theorem not_returned {s : State Empty} (hi : Inv plain .one zeros s) {call : Call Empty} (hr : Receivable plain s.right s.left call)
    (hfits : ¬ Fits plain s.right call) :
    (s.right.receive plain none s.left.party.out (inTurn s.right s.left) none).received ≠
      s.right.received ++ [(s.right.party.channel.phaseIndex, Except.ok call.value)] :=
  fun h => hfits (received_fits (hi.sound .left) (hi.sound .right) (hi.heard .right) hr none _ none h)

/-- A value that was accepted is not always returned. -/
theorem accepted_not_returned :
    ¬ ∀ (events : List (Event Empty)) (call : Call Empty),
      let s := exec (step plain) (start .one zeros) events
      Receivable plain s.right s.left call →
        (s.right.receive plain none s.left.party.out (inTurn s.right s.left) none).received =
          s.right.received ++ [(s.right.party.channel.phaseIndex, Except.ok call.value)] := by
  intro h
  obtain ⟨call, hr, hfits⟩ := both_directions (n := 2096000) (by omega) (by omega)
  exact not_returned (run_inv plain .one zeros _) hr hfits (h _ call hr)

end LocalHand.QuotaBridge
