/-
Two bridge channels over a wire that drops, repeats and reorders packets: what one
receives is what the other has sent, in its order and phase, and nothing follows
a deviation; over a faithful wire everything that was sent and fits arrives.
-/
import LocalHand.BridgeValues

namespace LocalHand.QuotaBridge

open PyJson ResultReader QuotaContract QuotaPayload Program Machine
open Framing (Bytes)

/-! ## Fragments -/

/-- A text a channel can send in the place of its sequence number. -/
structure Sendable (seq : Nat) (raw : Bytes) : Prop where
  seq : seq < 192
  pos : 0 < raw.length
  bound : raw.length ≤ limit

variable {seq : Nat} {raw text : Bytes}

theorem fragments_bound {i : Nat} : i < fragments raw ↔ i * chunk < raw.length := by
  simp only [fragments, chunk]
  omega

theorem fragments_pos (h : Sendable seq raw) : 0 < fragments raw := by
  rw [fragments_bound, Nat.zero_mul]
  exact h.pos

theorem length_packetAt (seq : Nat) (raw : Bytes) (i : Nat) :
    (packetAt seq raw i).length = headerSize + min chunk (raw.length - i * chunk) := by
  simp only [packetAt, List.length_append, Framing.length_header, List.length_take, List.length_drop, headerSize]
  omega

theorem readSize_seq (h : Sendable seq raw) (i : Nat) : Framing.readSize (packetAt seq raw i) = seq := by
  have hseq := h.seq
  rw [packetAt, Framing.readSize_header (by omega)]

theorem drop_header (n : Nat) (rest : Bytes) : (Framing.header n ++ rest).drop 4 = rest := rfl

theorem readSize_offset (h : Sendable seq raw) {i : Nat} (hi : i < fragments raw) :
    Framing.readSize ((packetAt seq raw i).drop 4) = i * chunk := by
  have hbound := h.bound
  rw [limit] at hbound
  rw [fragments_bound] at hi
  rw [packetAt, drop_header, Framing.readSize_header (by omega)]

theorem drop_eight (seq : Nat) (raw : Bytes) (i : Nat) :
    (packetAt seq raw i).drop 8 = Framing.header raw.length ++ (raw.drop (i * chunk)).take chunk := rfl

theorem readSize_size (h : Sendable seq raw) (i : Nat) : Framing.readSize ((packetAt seq raw i).drop 8) = raw.length := by
  have hbound := h.bound
  rw [limit] at hbound
  rw [drop_eight, Framing.readSize_header (by omega)]

theorem drop_headers (seq : Nat) (raw : Bytes) (i : Nat) :
    (packetAt seq raw i).drop headerSize = (raw.drop (i * chunk)).take chunk := rfl

/-- The text so far and the fragment that goes on from it. -/
theorem take_fragment (raw : Bytes) (i : Nat) :
    raw.take (i * chunk) ++ (raw.drop (i * chunk)).take chunk = raw.take ((i + 1) * chunk) := by
  rw [Nat.succ_mul, List.take_add]

/-- A fragment passes where the text before it has been gathered. -/
theorem checkFragment_packetAt (h : Sendable seq raw) {i : Nat} (hi : i < fragments raw) {expected : Option Nat}
    (hexpected : expected = none ∨ expected = some raw.length) :
    checkFragment seq (packetAt seq raw i) (raw.take (i * chunk)) expected = .ok (raw.length, raw.take ((i + 1) * chunk)) := by
  have hlen := length_packetAt seq raw i
  have hlt := fragments_bound.mp hi
  have hoffset : (raw.take (i * chunk)).length = i * chunk := by
    rw [List.length_take]
    omega
  have hnone : (expected.isNone || expected = some raw.length) = true := by
    rcases hexpected with rfl | rfl <;> simp
  have hpos := h.pos
  have hbound := h.bound
  have hchunk : 0 < chunk := by decide
  simp only [checkFragment, bind_ok, require_ok, exists_unit, readSize_seq h, readSize_offset h hi, readSize_size h, hoffset,
    drop_headers, take_fragment, hnone, hlen, Bool.and_eq_true, decide_eq_true_eq, Bool.and_true]
  refine ⟨by omega, ⟨⟨⟨trivial, trivial⟩, hpos⟩, hbound⟩, ⟨?_, ?_⟩, rfl⟩
  · rw [List.length_take]
    omega
  · omega

/-- What a passed fragment says of the text so far. -/
theorem checkFragment_ok (h : Sendable seq text) {i rx : Nat} (hi : i < fragments text) {expected : Option Nat} {size : Nat}
    {raw' : Bytes} (hcheck : checkFragment rx (packetAt seq text i) raw expected = .ok (size, raw')) :
    seq = rx ∧ i * chunk = raw.length ∧ size = text.length ∧ raw' = raw ++ (text.drop (i * chunk)).take chunk := by
  simp only [checkFragment, bind_ok, require_ok, exists_unit, readSize_seq h, readSize_offset h hi, readSize_size h,
    drop_headers, Bool.and_eq_true, decide_eq_true_eq, pure, Except.pure, Except.ok.injEq, Prod.mk.injEq] at hcheck
  obtain ⟨-, ⟨⟨⟨⟨hseq, hoffset⟩, -⟩, -⟩, -⟩, -, rfl, rfl⟩ := hcheck
  exact ⟨hseq, hoffset, rfl, rfl⟩

/-! ## Gathering -/

theorem charged_zero (c : Channel) : c.charged 0 0 = c := rfl

theorem charged_charged (c : Channel) (n m b d : Nat) : (c.charged n b).charged m d = c.charged (n + m) (b + d) := by
  simp only [Channel.charged, Nat.add_assoc]

theorem within_iff (c : Channel) : c.within = true ↔ c.total ≤ c.version.phases * 8 * limit ∧
    c.packets ≤ c.version.phases * 2048 ∧ c.phaseTotal ≤ 8 * limit ∧ c.phasePackets ≤ 2048 := by
  simp [Channel.within, and_assoc]

/-- Smaller totals are within their limits too. -/
theorem within_mono {c : Channel} {n m b d : Nat} (h : (c.charged m d).within = true) (hn : n ≤ m) (hb : b ≤ d) :
    (c.charged n b).within = true := by
  rw [within_iff] at h ⊢
  simp only [Channel.charged] at h ⊢
  omega

/-- The bytes of the packets of a text from one on. -/
def bytesFrom (raw : Bytes) (i : Nat) : Nat := headerSize * (fragments raw - i) + (raw.length - i * chunk)

theorem bytesFrom_succ {i : Nat} (hi : i < fragments raw) (seq : Nat) :
    bytesFrom raw i = (packetAt seq raw i).length + bytesFrom raw (i + 1) := by
  have hlt := fragments_bound.mp hi
  rw [length_packetAt, bytesFrom, bytesFrom, Nat.succ_mul]
  have hsub : fragments raw - i = fragments raw - (i + 1) + 1 := by omega
  rw [hsub, Nat.mul_succ]
  omega

theorem bytesFrom_end (raw : Bytes) : bytesFrom raw (fragments raw) = 0 := by
  have h : ¬ fragments raw < fragments raw := Nat.lt_irrefl _
  rw [fragments_bound] at h
  rw [bytesFrom, Nat.sub_self, Nat.mul_zero]
  omega

/-- A party in the middle of a call that found it as `p`. -/
def Party.After (p : Party) (n b k : Nat) : Party := ⟨p.channel.charged n b, p.out, p.taken + k⟩


theorem lift_spec {α : Type} (P : Party → Prop) (x : Except Fault α) :
    Spec P (lift x) (fun a q => P q ∧ x = .ok a) (fun _ => P) := by
  intro q hq
  cases x with
  | ok a => exact ⟨hq, rfl⟩
  | error fault => exact hq

theorem lift_from {α : Type} (a : α) (p : Party) : (lift (.ok a) : Op α).from p = (.ok a, p) := rfl

theorem channel_from (p : Party) : channel.from p = (.ok p.channel, p) := rfl

theorem charge_spec (p : Party) (count : Nat) :
    Spec (· = p) (charge count) (fun _ q => q = p.After 1 count 0 ∧ q.channel.within = true) (fun _ q => q = p.After 1 count 0) := by
  refine Spec.bind (Q := fun _ q => q = p.After 1 count 0) (Spec.update ?_) fun _ => ?_
  · rintro q rfl
    rfl
  refine Spec.bind (Q := fun c q => q = p.After 1 count 0 ∧ c = q.channel) ?_ fun c => ?_
  · exact fun q hq => ⟨hq, rfl⟩
  refine (lift_spec _ _).weaken (fun _ h => h) ?_ fun _ _ h => h.1
  rintro _ q ⟨⟨hq, rfl⟩, hwithin⟩
  exact ⟨hq, by simpa using hwithin⟩

section

variable {M : Nat → Bytes → Prop} {peer : List Bytes}

/-- The packets of messages, of one text each. -/
structure Messages (M : Nat → Bytes → Prop) (peer : List Bytes) : Prop where
  packets : ∀ packet ∈ peer, ∃ seq text i, M seq text ∧ i < fragments text ∧ packet = packetAt seq text i
  sendable : ∀ seq text, M seq text → Sendable seq text
  unique : ∀ seq text text', M seq text → M seq text' → text = text'

/-- One turn of the loop: the packet taken, if it passes, is the next of its message. -/
theorem turn_spec (hM : Messages M peer) (p : Party) (arrival : Arrival) (raw : Bytes) (expected : Option Nat) :
    Spec (· = p) (turn peer arrival raw expected)
      (fun r q => ∃ text i, M p.channel.rx text ∧ i < fragments text ∧ i * chunk = raw.length ∧
        r = (text.length, raw ++ (text.drop (i * chunk)).take chunk) ∧ arrival.deliver peer = .ok (packetAt p.channel.rx text i) ∧
        q = p.After 1 (packetAt p.channel.rx text i).length 1 ∧ q.channel.within = true)
      (fun _ q => ∃ n b k, q = p.After n b k) := by
  refine Spec.bind (Q := fun _ q => q = p.After 0 0 1) (Spec.update ?_) fun _ => ?_
  · rintro q rfl
    rfl
  refine Spec.bind ((lift_spec _ _).weaken (fun _ h => h) (fun _ _ h => h) fun _ q h => ⟨0, 0, 1, h⟩) fun packet => ?_
  rintro q ⟨rfl, hdeliver⟩
  refine (?_ : Spec (· = p.After 0 0 1) _ _ _) _ rfl
  refine Spec.bind ((charge_spec _ _).weaken (fun _ h => h) (fun _ _ h => h) fun _ q h => ⟨1, packet.length, 1, h⟩) fun _ => ?_
  rintro q ⟨rfl, hwithin⟩
  refine (?_ : Spec (· = p.After 1 packet.length 1) _ _ _) _ ?_
  swap
  · simp [Party.After, charged_charged]
  refine Spec.bind (Q := fun c q => q = p.After 1 packet.length 1 ∧ c.rx = p.channel.rx) ?_ fun c => ?_
  · rintro _ rfl
    exact ⟨rfl, rfl⟩
  refine (lift_spec _ _).weaken (fun _ h => h) ?_ fun _ q h => ⟨1, packet.length, 1, h.1⟩
  rintro r q ⟨⟨rfl, hrx⟩, hcheck⟩
  have hmem : packet ∈ peer := by
    cases arrival with
    | packet index =>
      simp only [Arrival.deliver] at hdeliver
      split at hdeliver
      · next found hfound =>
        split at hdeliver
        · cases hdeliver
          exact List.mem_of_getElem? hfound
        · cases hdeliver
      · cases hdeliver
    | foreign fault => cases hdeliver
  obtain ⟨seq, text, i, hmessage, hi, rfl⟩ := hM.packets packet hmem
  obtain ⟨size, raw'⟩ := r
  obtain ⟨rfl, hoffset, rfl, rfl⟩ := checkFragment_ok (hM.sendable _ _ hmessage) hi hcheck
  rw [hrx] at hmessage
  rw [hrx] at hdeliver ⊢
  refine ⟨text, i, hmessage, hi, hoffset, rfl, hdeliver, rfl, ?_⟩
  rw [hrx] at hwithin
  simpa [Party.After, charged_charged] using hwithin

theorem after_after (p : Party) (n b k m d j : Nat) : (p.After n b k).After m d j = p.After (n + m) (b + d) (k + j) := by
  simp only [Party.After, charged_charged, Nat.add_assoc]

theorem gathered_take {i : Nat} (hi : i < fragments text) : gathered (text.take (i * chunk)) (some text.length) = false := by
  have hlt := fragments_bound.mp hi
  simp only [gathered, Option.any_some, decide_eq_false_iff_not, List.length_take]
  omega

theorem take_all {i : Nat} (hi : fragments text ≤ i) : text.take (i * chunk) = text := by
  have hbound : ¬ i < fragments text := by omega
  rw [fragments_bound] at hbound
  exact List.take_of_length_le (by omega)

theorem gathered_all : gathered text (some text.length) = true := by simp [gathered]

theorem drop_packetsOf {i : Nat} (hi : i < fragments text) (seq : Nat) :
    (packetsOf seq text).drop i = packetAt seq text i :: (packetsOf seq text).drop (i + 1) := by
  have hlen : i < (packetsOf seq text).length := by simpa [packetsOf] using hi
  rw [List.drop_eq_getElem_cons hlen]
  simp [packetsOf]

/-- The rest of a message has been taken off the wire, and nothing else. -/
structure Party.Gathered (p : Party) (peer : List Bytes) (arrivals : List Arrival) (text : Bytes) (i : Nat) (q : Party) : Prop where
  after : q = p.After (fragments text - i) (bytesFrom text i) (fragments text - i)
  whole : (arrivals.take (fragments text - i)).map (·.deliver peer) = ((packetsOf p.channel.rx text).drop i).map .ok
  within : i < fragments text → q.channel.within = true

theorem Party.Gathered.nothing (p : Party) (peer : List Bytes) (arrivals : List Arrival) (text : Bytes) :
    p.Gathered peer arrivals text (fragments text) p := by
  refine ⟨?_, ?_, fun h => absurd h (Nat.lt_irrefl _)⟩
  · rw [Nat.sub_self, bytesFrom_end]
    rfl
  · rw [Nat.sub_self, List.take_zero, List.drop_of_length_le (by simp [packetsOf])]
    rfl

/-- The last packet taken is within the limits: it is this one or one of the rest. -/
theorem within_rest {q t : Party} {i : Nat} (hq : q.channel.within = true)
    (hafter : t = q.After (fragments text - (i + 1)) (bytesFrom text (i + 1)) (fragments text - (i + 1)))
    (hmore : i + 1 < fragments text → t.channel.within = true) : t.channel.within = true := by
  by_cases hi : i + 1 < fragments text
  · exact hmore hi
  · have hbound := hi
    rw [fragments_bound] at hbound
    have hnone : fragments text - (i + 1) = 0 := by omega
    have hbytes : bytesFrom text (i + 1) = 0 := by
      rw [bytesFrom, hnone, Nat.mul_zero]
      omega
    rw [hafter, hbytes, hnone]
    exact hq

/-- **The loop ends with the message it is in**, or the call raises. -/
theorem gather_rest (hM : Messages M peer) (p : Party) (hmessage : M p.channel.rx text) (arrivals : List Arrival) {i : Nat}
    (hi : i ≤ fragments text) :
    Spec (· = p) (gather peer arrivals (text.take (i * chunk)) (some text.length))
      (fun r q => r = text ∧ p.Gathered peer arrivals text i q) (fun _ q => ∃ n b k, q = p.After n b k) := by
  induction arrivals generalizing p i with
  | nil =>
    rw [gather]
    rcases Nat.lt_or_eq_of_le hi with hlt | heq
    · rw [gathered_take hlt]
      exact Spec.raise fun q hq => ⟨0, 0, 0, hq⟩
    · subst heq
      rw [take_all le_rfl, gathered_all]
      exact Spec.ret fun q hq => ⟨rfl, hq ▸ .nothing p peer [] text⟩
  | cons arrival rest ih =>
    rw [gather]
    rcases Nat.lt_or_eq_of_le hi with hlt | heq
    · rw [gathered_take hlt, if_neg (by simp)]
      refine Spec.bind (turn_spec hM p arrival _ _) fun r => ?_
      rintro q ⟨text', i', hmessage', hi', hoffset, rfl, hdeliver, hq, hwithin⟩
      -- There is one message of this number, and its fragments are told by their offsets.
      obtain rfl := hM.unique _ _ _ hmessage' hmessage
      have hpos := fragments_bound.mp hlt
      have hsame : i' = i := by
        rw [List.length_take, chunk] at hoffset
        rw [chunk] at hpos
        omega
      subst hsame
      have hrx : q.channel.rx = p.channel.rx := by rw [hq]; rfl
      have hcompose : ∀ n b k, q.After n b k = p.After (1 + n) ((packetAt p.channel.rx text' i').length + b) (1 + k) := by
        intro n b k
        rw [hq, after_after]
      have hcount : fragments text' - i' = 1 + (fragments text' - (i' + 1)) := by omega
      rw [take_fragment]
      refine ((ih q (hrx ▸ hmessage) hlt).weaken (fun _ h => h) ?_ ?_) q rfl
      · rintro r t ⟨rfl, hafter, hwhole, hmore⟩
        refine ⟨rfl, ?_, ?_, fun _ => within_rest hwithin hafter hmore⟩
        · rw [hafter, hcompose, hcount, bytesFrom_succ hi' p.channel.rx]
        · rw [hcount, Nat.add_comm 1, List.take_succ_cons, List.map_cons, hdeliver, hwhole, hrx, drop_packetsOf hlt, List.map_cons]
      · rintro fault t ⟨n, b, k, rfl⟩
        exact ⟨_, _, _, hcompose n b k⟩
    · subst heq
      rw [take_all le_rfl, gathered_all]
      exact Spec.ret fun q hq => ⟨rfl, hq ▸ .nothing p peer _ text⟩

theorem gather_spec (hM : Messages M peer) (p : Party) (arrivals : List Arrival) :
    Spec (· = p) (gather peer arrivals [] none)
      (fun r q => M p.channel.rx r ∧ p.Gathered peer arrivals r 0 q) (fun _ q => ∃ n b k, q = p.After n b k) := by
  cases arrivals with
  | nil => exact Spec.raise fun q hq => ⟨0, 0, 0, hq⟩
  | cons arrival rest =>
    refine Spec.bind (turn_spec hM p arrival _ _) fun r => ?_
    rintro q ⟨text, i, hmessage, hi, hoffset, rfl, hdeliver, hq, hwithin⟩
    have hzero : i = 0 := by
      rw [List.length_nil, chunk] at hoffset
      omega
    subst hzero
    have hrx : q.channel.rx = p.channel.rx := by rw [hq]; rfl
    have hcompose : ∀ n b k, q.After n b k = p.After (1 + n) ((packetAt p.channel.rx text 0).length + b) (1 + k) := by
      intro n b k
      rw [hq, after_after]
    have hcount : fragments text - 0 = 1 + (fragments text - 1) := by omega
    have hstart : ([] : Bytes) ++ (text.drop (0 * chunk)).take chunk = text.take (1 * chunk) := by simp
    rw [hstart]
    refine ((gather_rest hM q (hrx ▸ hmessage) rest hi).weaken (fun _ h => h) ?_ ?_) q rfl
    · rintro r t ⟨rfl, hafter, hwhole, hmore⟩
      refine ⟨hmessage, ?_, ?_, fun _ => within_rest hwithin hafter hmore⟩
      · rw [hafter, hcompose, hcount, bytesFrom_succ hi p.channel.rx]
      · rw [hcount, Nat.add_comm 1, List.take_succ_cons, List.map_cons, hdeliver, hwhole, hrx, drop_packetsOf hi, List.map_cons]
    · rintro fault t ⟨n, b, k, rfl⟩
      exact ⟨_, _, _, hcompose n b k⟩

/-! ### What arrives is taken -/

theorem charge_from {p : Party} {n : Nat} (h : (p.channel.charged 1 n).within = true) :
    (charge n).from p = (.ok (), p.After 1 n 0) := by
  have hcharged : (update fun c => c.charged 1 n).from p = (.ok (), p.After 1 n 0) := rfl
  have hwithin : (p.After 1 n 0).channel.within = true := h
  rw [charge, from_bind_ok hcharged, from_bind_ok (channel_from _), require_ok.mpr hwithin, lift_from]

theorem turn_from (hs : Sendable seq text) {p : Party} (hrx : p.channel.rx = seq) {arrival : Arrival} {i : Nat}
    (hi : i < fragments text) (hdeliver : arrival.deliver peer = .ok (packetAt seq text i)) {expected : Option Nat}
    (hexpected : expected = none ∨ expected = some text.length)
    (hwithin : (p.channel.charged 1 (packetAt seq text i).length).within = true) :
    (turn peer arrival (text.take (i * chunk)) expected).from p =
      (.ok (text.length, text.take ((i + 1) * chunk)), p.After 1 (packetAt seq text i).length 1) := by
  have hcharge := charge_from (p := p.After 0 0 1) (n := (packetAt seq text i).length)
    (by rw [Party.After, charged_charged, Nat.zero_add, Nat.zero_add]; exact hwithin)
  have htaken : (modify fun p => { p with taken := p.taken + 1 } : Op Unit).from p = (.ok (), p.After 0 0 1) := rfl
  have hafter : (p.After 0 0 1).After 1 (packetAt seq text i).length 0 = p.After 1 (packetAt seq text i).length 1 := by
    rw [after_after, Nat.zero_add, Nat.zero_add]
  have hcheck : checkFragment (p.After 1 (packetAt seq text i).length 1).channel.rx (packetAt seq text i) (text.take (i * chunk))
      expected = .ok (text.length, text.take ((i + 1) * chunk)) := by
    rw [Party.After, Channel.charged, hrx, checkFragment_packetAt hs hi hexpected]
  rw [turn, from_bind_ok htaken, hdeliver, from_bind_ok (lift_from _ _), from_bind_ok hcharge, hafter,
    from_bind_ok (channel_from _), hcheck, lift_from]

/-- **A message that arrives whole, and fits, is gathered.** -/
theorem gather_from (hs : Sendable seq text) {p : Party} (hrx : p.channel.rx = seq) {arrivals : List Arrival} {i : Nat}
    (hi : i ≤ fragments text) {e : Option Nat} (hexpected : (e = none ∧ i = 0) ∨ e = some text.length)
    (hwhole : (arrivals.take (fragments text - i)).map (·.deliver peer) = ((packetsOf seq text).drop i).map .ok)
    (hwithin : (p.channel.charged (fragments text - i) (bytesFrom text i)).within = true) :
    (gather peer arrivals (text.take (i * chunk)) e).from p =
      (.ok text, p.After (fragments text - i) (bytesFrom text i) (fragments text - i)) := by
  induction hn : fragments text - i generalizing arrivals i p e with
  | zero =>
    have hend : i = fragments text := by omega
    have hpos := fragments_pos hs
    obtain rfl : e = some text.length := hexpected.resolve_left (by omega)
    subst hend
    rw [take_all le_rfl, bytesFrom_end]
    cases arrivals <;> rw [gather, gathered_all] <;> rfl
  | succ n ih =>
    have hlt : i < fragments text := by omega
    rw [hn, drop_packetsOf hlt] at hwhole
    cases arrivals with
    | nil => simp at hwhole
    | cons arrival rest =>
      rw [List.take_succ_cons, List.map_cons, List.map_cons, List.cons.injEq] at hwhole
      obtain ⟨hdeliver, hwhole⟩ := hwhole
      have hnot : gathered (text.take (i * chunk)) e = false := by
        rcases hexpected with ⟨rfl, -⟩ | rfl
        · rfl
        · exact gathered_take hlt
      have hfirst := within_mono hwithin (n := 1) (b := (packetAt seq text i).length) (by omega)
        (by rw [bytesFrom_succ hlt seq]; omega)
      have hrest : n = fragments text - (i + 1) := by omega
      have hsum : fragments text - i = 1 + n := by omega
      have hnext := ih (p := p.After 1 (packetAt seq text i).length 1) (e := some text.length) hrx hlt (.inr rfl)
        (by rw [← hrest]; exact hwhole)
        (by rw [Party.After, charged_charged, ← hrest, ← hsum, ← bytesFrom_succ hlt seq]; exact hwithin) hrest.symm
      have hexpected' : e = none ∨ e = some text.length := hexpected.imp And.left id
      rw [gather, hnot, if_neg (by simp), from_bind, turn_from hs hrx hlt hdeliver hexpected' hfirst]
      dsimp only
      rw [hnext, after_after, bytesFrom_succ hlt seq, Nat.add_comm 1 n]

end

/-! ## The calls -/

theorem channel_spec (p : Party) {E : Fault → Party → Prop} : Spec (· = p) channel (fun c q => q = p ∧ c = p.channel) E := by
  rintro q rfl
  exact ⟨rfl, rfl⟩

theorem check_spec {α : Type} (p : Party) (x : Except Fault α) {E : Fault → Party → Prop} (hE : ∀ fault, E fault p) :
    Spec (· = p) (lift x) (fun a q => q = p ∧ x = .ok a) E :=
  (lift_spec _ x).weaken (fun _ h => h) (fun _ _ h => h) fun fault _ h => h ▸ hE fault

theorem time_spec (p : Party) (outside : Option Fault) {E : Fault → Party → Prop} (hE : ∀ fault, E fault p) :
    Spec (· = p) (time outside) (fun _ q => q = p ∧ p.channel.poisoned = false) E := by
  refine Spec.bind (channel_spec p) fun c => ?_
  rintro q ⟨rfl, rfl⟩
  refine (?_ : Spec (· = q) _ _ _) q rfl
  refine Spec.bind (check_spec q _ hE) fun _ => ?_
  rintro r ⟨rfl, hlive⟩
  cases outside with
  | none => exact ⟨rfl, by simpa using hlive⟩
  | some fault => exact hE fault

/-- A party poisoned in a call that has put packets out and taken others. -/
def Party.poison (p : Party) (n b k : Nat) (packets : List Bytes) : Party :=
  ⟨{ p.channel.charged n b with poisoned := true }, p.out ++ packets, p.taken + k⟩

/-- A party in a call that has put packets out. -/
def Party.Out (p : Party) (b : Nat) (packets : List Bytes) : Party :=
  ⟨p.channel.charged packets.length b, p.out ++ packets, p.taken⟩

/-- A call that raises poisons its channel. -/
theorem guarded_spec {α : Type} {P : Party → Prop} {op : Op α} {Q : α → Party → Prop} {R : Party → Prop}
    (h : Spec P op Q fun _ q => R { q with channel := { q.channel with poisoned := true } }) :
    Spec P (guarded op) Q (fun _ => R) :=
  Spec.handle h fun _ => Spec.bind (Spec.update (Q := fun _ => R) fun _ h => h) fun _ => Spec.raise fun _ h => h

theorem transmit_spec (p : Party) (sending : Nat → Sending) (i : Nat) (packets : List Bytes) :
    Spec (· = p) (transmit sending i packets) (fun _ q => ∃ b, q = p.Out b packets)
      (fun _ q => ∃ n b k, { q with channel := { q.channel with poisoned := true } } = p.poison n b 0 (packets.take k)) := by
  induction packets generalizing p i with
  | nil => exact Spec.ret fun q hq => ⟨0, by rw [hq, Party.Out, List.append_nil]; rfl⟩
  | cons packet rest ih =>
    rw [transmit]
    cases sending i with
    | lost fault => exact Spec.raise fun q hq => ⟨0, 0, 0, by rw [hq, Party.poison, List.take_zero, List.append_nil]; rfl⟩
    | kept fault =>
      refine Spec.bind (Q := fun _ q => q = ⟨p.channel, p.out ++ [packet], p.taken⟩) (Spec.update ?_) fun _ => ?_
      · exact fun q hq => by rw [hq]
      · exact Spec.raise fun q hq => ⟨0, 0, 1, by rw [hq]; rfl⟩
    | done =>
      refine Spec.bind (Q := fun _ q => q = ⟨p.channel, p.out ++ [packet], p.taken⟩) (Spec.update ?_) fun _ => ?_
      · exact fun q hq => by rw [hq]
      refine Spec.bind ((charge_spec _ _).weaken (fun _ h => h) (fun _ _ h => h.1) ?_) fun _ => ?_
      · exact fun fault q hq => ⟨1, packet.length, 1, by rw [hq]; rfl⟩
      refine (ih _ (i + 1)).weaken (fun _ h => h) ?_ ?_
      · rintro _ q ⟨b, rfl⟩
        exact ⟨packet.length + b, by simp [Party.Out, Party.After, charged_charged, Nat.add_comm]⟩
      · rintro _ q ⟨n, b, k, hq⟩
        exact ⟨1 + n, packet.length + b, k + 1, by rw [hq]; simp [Party.poison, Party.After, charged_charged]⟩

section

variable {F : Type} (host : Host F)

/-- What a call of `send` puts on the wire, if it does. -/
def prepared (c : Channel) (value : Value F) : Except Fault Bytes := do
  require (!c.poisoned && (c.phaseTx < 64 && c.tx < c.version.exchanges)) (quotaError "BRIDGE_EXCHANGE_LIMIT")
  let value ← envelope host c value
  canonical host.floats value limit

/-- A party after a `send`. -/
def Party.Sent (p : Party) (b : Nat) (raw : Bytes) : Party :=
  let q := p.Out b (packetsOf p.channel.tx raw)
  { q with channel := { q.channel with tx := p.channel.tx + 1, phaseTx := p.channel.phaseTx + 1 } }

theorem send_spec (p : Party) (early : Option Fault) (sending : Nat → Sending) (late : Option Fault) (value : Value F) :
    Spec (· = p) (send host early sending late value)
      (fun _ q => ∃ raw b, prepared host p.channel value = .ok raw ∧ q = p.Sent b raw)
      (fun _ q => ∃ n b packets, q = p.poison n b 0 packets ∧
        (packets = [] ∨ ∃ raw k, prepared host p.channel value = .ok raw ∧ packets = (packetsOf p.channel.tx raw).take k)) := by
  refine guarded_spec (R := fun q => ∃ n b packets, q = p.poison n b 0 packets ∧
    (packets = [] ∨ ∃ raw k, prepared host p.channel value = .ok raw ∧ packets = (packetsOf p.channel.tx raw).take k)) ?_
  have hnone : ∃ n b packets, ({ p with channel := { p.channel with poisoned := true } } : Party) = p.poison n b 0 packets ∧
      (packets = [] ∨ ∃ raw k, prepared host p.channel value = .ok raw ∧ packets = (packetsOf p.channel.tx raw).take k) :=
    ⟨0, 0, [], by rw [Party.poison, List.append_nil]; rfl, .inl rfl⟩
  refine Spec.bind (time_spec p early fun _ => hnone) fun _ => ?_
  rintro q ⟨rfl, hlive⟩
  refine (?_ : Spec (· = q) _ _ _) q rfl
  refine Spec.bind (channel_spec q) fun c => ?_
  rintro q ⟨rfl, rfl⟩
  refine (?_ : Spec (· = q) _ _ _) q rfl
  refine Spec.bind (check_spec q _ fun _ => hnone) fun _ => ?_
  rintro q ⟨rfl, hexchange⟩
  refine (?_ : Spec (· = q) _ _ _) q rfl
  refine Spec.bind (check_spec q _ fun _ => hnone) fun env => ?_
  rintro q ⟨rfl, henv⟩
  refine (?_ : Spec (· = q) _ _ _) q rfl
  refine Spec.bind (check_spec q _ fun _ => hnone) fun raw => ?_
  rintro q ⟨rfl, hraw⟩
  have hprepared : prepared host q.channel value = .ok raw := by
    simp only [prepared, bind_ok, require_ok, exists_unit]
    rw [require_ok] at hexchange
    exact ⟨by simp [hlive, hexchange], env, henv, hraw⟩
  refine (?_ : Spec (· = q) _ _ _) q rfl
  refine Spec.bind ((transmit_spec q sending 0 _).weaken (fun _ h => h) (fun _ _ h => h) ?_) fun _ => ?_
  · rintro _ r ⟨n, b, k, hr⟩
    exact ⟨n, b, _, hr, .inr ⟨raw, k, hprepared, rfl⟩⟩
  rintro _ ⟨b, rfl⟩
  refine (?_ : Spec (· = q.Out b (packetsOf q.channel.tx raw)) _ _ _) _ rfl
  refine Spec.bind (time_spec _ late fun _ => ?_) fun _ => ?_
  · refine ⟨(packetsOf q.channel.tx raw).length, b, packetsOf q.channel.tx raw, rfl, .inr ⟨raw, fragments raw, hprepared, ?_⟩⟩
    rw [List.take_of_length_le (by simp [packetsOf])]
  · refine Spec.update ?_
    rintro _ ⟨rfl, -⟩
    exact ⟨raw, b, hprepared, rfl⟩

/-- The packets of a text have this many bytes. -/
theorem bytes_packetsOf (seq : Nat) (raw : Bytes) : ((packetsOf seq raw).map List.length).sum = bytesFrom raw 0 := by
  have hrest : ∀ n i, n = fragments raw - i → i ≤ fragments raw →
      (((packetsOf seq raw).drop i).map List.length).sum = bytesFrom raw i := by
    intro n
    induction n with
    | zero =>
      intro i hn hi
      obtain rfl : i = fragments raw := by omega
      rw [bytesFrom_end, List.drop_of_length_le (by simp [packetsOf])]
      rfl
    | succ n ih =>
      intro i hn hi
      have hlt : i < fragments raw := by omega
      rw [drop_packetsOf hlt, List.map_cons, List.sum_cons, ih (i + 1) (by omega) hlt, bytesFrom_succ hlt seq]
  exact hrest _ 0 rfl (Nat.zero_le _)

theorem transmit_from {p : Party} {l : List Bytes}
    (h : (p.channel.charged l.length (l.map List.length).sum).within = true) (i : Nat) :
    (transmit (fun _ => .done) i l).from p = (.ok (), p.Out (l.map List.length).sum l) := by
  induction l generalizing p i with
  | nil =>
    rw [transmit, from_pure, Party.Out, List.append_nil]
    rfl
  | cons packet rest ih =>
    rw [List.length_cons, List.map_cons, List.sum_cons] at h
    have hput : (modify fun p => { p with out := p.out ++ [packet] } : Op Unit).from p =
        (.ok (), ⟨p.channel, p.out ++ [packet], p.taken⟩) := rfl
    have hfirst : (p.channel.charged 1 packet.length).within = true := within_mono h (by omega) (by omega)
    have hcharge := charge_from (p := ⟨p.channel, p.out ++ [packet], p.taken⟩) hfirst
    have hrest := ih (p := Party.After ⟨p.channel, p.out ++ [packet], p.taken⟩ 1 packet.length 0)
      (by rw [Party.After, charged_charged, Nat.add_comm 1]; exact h) (i + 1)
    rw [transmit, from_bind_ok hput, from_bind_ok hcharge, hrest, List.map_cons, List.sum_cons]
    simp [Party.Out, Party.After, charged_charged, Nat.add_comm]

theorem time_from {p : Party} (hlive : p.channel.poisoned = false) : (time none).from p = (.ok (), p) := by
  have hpassed : require (!p.channel.poisoned) (quotaError "BRIDGE_UNAVAILABLE") = .ok () := by
    rw [require_ok, hlive]
    rfl
  rw [time, from_bind_ok (channel_from p), hpassed, from_bind_ok (lift_from _ _), from_pure]

/-- A call that meets nothing is accepted where its packets fit. -/
theorem send_from {p : Party} {value : Value F} {raw : Bytes} (hprepared : prepared host p.channel value = .ok raw)
    (hfits : (p.channel.charged (fragments raw) (bytesFrom raw 0)).within = true) :
    (send host none (fun _ => .done) none value).from p = (.ok (), p.Sent (bytesFrom raw 0) raw) := by
  simp only [prepared, bind_ok, require_ok, exists_unit, Bool.and_eq_true, Bool.not_eq_true'] at hprepared
  obtain ⟨⟨hlive, hexchange⟩, env, henv, hraw⟩ := hprepared
  have hallowed : require (decide (p.channel.phaseTx < 64) && decide (p.channel.tx < p.channel.version.exchanges))
      (quotaError "BRIDGE_EXCHANGE_LIMIT") = .ok () := by
    rw [require_ok, Bool.and_eq_true]
    exact hexchange
  have hcount : (packetsOf p.channel.tx raw).length = fragments raw := by simp [packetsOf]
  have htransmit := transmit_from (p := p) (l := packetsOf p.channel.tx raw) (by rw [hcount, bytes_packetsOf]; exact hfits) 0
  rw [bytes_packetsOf] at htransmit
  have hlate : (time none).from (p.Out (bytesFrom raw 0) (packetsOf p.channel.tx raw)) = (.ok (), _) := time_from hlive
  refine from_tryCatch_ok ?_
  rw [from_bind_ok (time_from hlive), from_bind_ok (channel_from p), hallowed, from_bind_ok (lift_from _ _), henv,
    from_bind_ok (lift_from _ _), hraw, from_bind_ok (lift_from _ _), from_bind_ok htransmit, from_bind_ok hlate]
  rfl

/-- A party after a `receive` of a text. -/
def Party.Received (p : Party) (raw : Bytes) : Party :=
  let q := p.After (fragments raw) (bytesFrom raw 0) (fragments raw)
  { q with channel := { q.channel with rx := p.channel.rx + 1, phaseRx := p.channel.phaseRx + 1 } }

theorem receive_spec {M : Nat → Bytes → Prop} {peer : List Bytes} (hM : Messages M peer) (p : Party) (early : Option Fault)
    (arrivals : List Arrival) (late : Option Fault) :
    Spec (· = p) (receive host early peer arrivals late)
      (fun value q => p.channel.poisoned = false ∧ ∃ raw read, M p.channel.rx raw ∧
        load host.floats raw limit 20 = .ok read ∧ opened host p.channel read = .ok value ∧ q = p.Received raw ∧
        (arrivals.take (fragments raw)).map (·.deliver peer) = (packetsOf p.channel.rx raw).map .ok ∧
        (p.channel.charged (fragments raw) (bytesFrom raw 0)).within = true)
      (fun _ q => ∃ n b k, q = p.poison n b k []) := by
  refine guarded_spec (R := fun q => ∃ n b k, q = p.poison n b k []) ?_
  have hnone : ∃ n b k, ({ p with channel := { p.channel with poisoned := true } } : Party) = p.poison n b k [] :=
    ⟨0, 0, 0, by rw [Party.poison, List.append_nil]; rfl⟩
  have hafter : ∀ n b k, ∃ m d j, ({ p.After n b k with channel := { (p.After n b k).channel with poisoned := true } } : Party) =
      p.poison m d j [] := fun n b k => ⟨n, b, k, by rw [Party.poison, List.append_nil]; rfl⟩
  refine Spec.bind (channel_spec p) fun c => ?_
  rintro q ⟨rfl, rfl⟩
  refine (?_ : Spec (· = q) _ _ _) q rfl
  refine Spec.bind (check_spec q _ fun _ => hnone) fun _ => ?_
  rintro q ⟨rfl, -⟩
  refine (?_ : Spec (· = q) _ _ _) q rfl
  refine Spec.bind (time_spec q early fun _ => hnone) fun _ => ?_
  rintro q ⟨rfl, hlive⟩
  refine (?_ : Spec (· = q) _ _ _) q rfl
  refine Spec.bind ((gather_spec hM q arrivals).weaken (fun _ h => h) (fun _ _ h => h) ?_) fun raw => ?_
  · rintro _ r ⟨n, b, k, rfl⟩
    exact hafter n b k
  rintro _ ⟨hmessage, rfl, hwhole, hwithin⟩
  rw [Nat.sub_zero, List.drop_zero] at hwhole
  have hfits := hwithin (fragments_pos (hM.sendable _ _ hmessage))
  refine (?_ : Spec (· = q.After (fragments raw) (bytesFrom raw 0) (fragments raw)) _ _ _) _ rfl
  refine Spec.bind (check_spec _ _ fun _ => hafter _ _ _) fun read => ?_
  rintro _ ⟨rfl, hload⟩
  refine (?_ : Spec (· = q.After (fragments raw) (bytesFrom raw 0) (fragments raw)) _ _ _) _ rfl
  refine Spec.bind (check_spec _ _ fun _ => hafter _ _ _) fun value => ?_
  rintro _ ⟨rfl, hopened⟩
  refine (?_ : Spec (· = q.After (fragments raw) (bytesFrom raw 0) (fragments raw)) _ _ _) _ rfl
  refine Spec.bind (time_spec _ late fun _ => hafter _ _ _) fun _ => ?_
  refine Spec.bind (Q := fun _ r => r = q.Received raw) (Spec.update ?_) fun _ => ?_
  · rintro _ ⟨rfl, -⟩
    rfl
  · exact Spec.ret fun r hr => ⟨hlive, raw, read, hmessage, hload, hopened, hr, hwhole, hfits⟩

theorem receive_from {seq : Nat} {raw : Bytes} (hs : Sendable seq raw) {peer : List Bytes} {p : Party} (hrx : p.channel.rx = seq)
    (hlive : p.channel.poisoned = false) (hexchange : p.channel.phaseRx < 64 ∧ p.channel.rx < p.channel.version.exchanges)
    {arrivals : List Arrival} (hwhole : (arrivals.take (fragments raw)).map (·.deliver peer) = (packetsOf seq raw).map .ok)
    (hwithin : (p.channel.charged (fragments raw) (bytesFrom raw 0)).within = true) {read value : Value F}
    (hload : load host.floats raw limit 20 = .ok read) (hopened : opened host p.channel read = .ok value) :
    (receive host none peer arrivals none).from p = (.ok value, p.Received raw) := by
  have hgather := gather_from (i := 0) (e := none) hs hrx (Nat.zero_le _) (.inl ⟨rfl, rfl⟩) hwhole hwithin
  rw [Nat.zero_mul, List.take_zero, Nat.sub_zero] at hgather
  have hallowed : require (decide (p.channel.phaseRx < 64) && decide (p.channel.rx < p.channel.version.exchanges))
      (quotaError "BRIDGE_EXCHANGE_LIMIT") = .ok () := by
    rw [require_ok]
    simp [hexchange]
  have hlate : (time none).from (p.After (fragments raw) (bytesFrom raw 0) (fragments raw)) = (.ok (), _) := time_from hlive
  refine from_tryCatch_ok ?_
  rw [from_bind_ok (channel_from p), hallowed, from_bind_ok (lift_from _ _), from_bind_ok (time_from hlive),
    from_bind_ok hgather, hload, from_bind_ok (lift_from _ _), hopened, from_bind_ok (lift_from _ _), from_bind_ok hlate]
  rfl

/-- A party in its next phase. -/
def Party.Advanced (p : Party) : Party :=
  { p with channel := { p.channel with phaseIndex := p.channel.phaseIndex + 1, phaseTx := 0, phaseRx := 0, phaseTotal := 0,
                                       phasePackets := 0 } }

theorem advancePhase_spec (p : Party) (early : Option Fault) (phase : String) :
    Spec (· = p) (advancePhase early phase)
      (fun _ q => p.channel.poisoned = false ∧ p.channel.version = .two ∧ p.channel.phaseIndex + 1 < 3 ∧ q = p.Advanced)
      (fun _ q => q = p.poison 0 0 0 []) := by
  have hnone : ({ p with channel := { p.channel with poisoned := true } } : Party) = p.poison 0 0 0 [] := by
    rw [Party.poison, List.append_nil]
    rfl
  refine guarded_spec (R := (· = p.poison 0 0 0 [])) ?_
  refine Spec.bind (time_spec p early fun _ => hnone) fun _ => ?_
  rintro q ⟨rfl, hlive⟩
  refine (?_ : Spec (· = q) _ _ _) q rfl
  refine Spec.bind (channel_spec q) fun c => ?_
  rintro q ⟨rfl, rfl⟩
  refine (?_ : Spec (· = q) _ _ _) q rfl
  refine Spec.bind (check_spec q _ fun _ => hnone) fun _ => ?_
  rintro q ⟨rfl, horder⟩
  simp only [require_ok, Bool.and_eq_true, decide_eq_true_eq] at horder
  obtain ⟨hlt, -⟩ := List.getElem?_eq_some_iff.mp horder.2
  exact ⟨hlive, horder.1, hlt, rfl⟩

end

end LocalHand.QuotaBridge
