import EspMqtt.Library.Base128
import EspMqtt.Client

/-! The bytes of a connection, write by write: which of them belong to one packet, and
what makes a packet complete. -/
namespace EspMqtt

/-- A packet but for its last `n` bytes: the type byte, the Remaining Length, and a part of what that
counts. -/
def Awaits (n : ℕ) (bytes : List UInt8) : Prop :=
  ∃ b lens part, bytes = b :: (lens ++ part) ∧ Base128.IsField lens ∧ lens.length ≤ 4 ∧
    Base128.value lens = part.length+n

/-- The beginning of a packet. -/
def Truncated (bytes : List UInt8) : Prop := ∃ packet, Awaits 0 packet ∧ bytes <+: packet

theorem Awaits.append {n : ℕ} {bytes more : List UInt8} (h : Awaits (more.length+n) bytes) :
    Awaits n (bytes ++ more) := by
  obtain ⟨b,lens,part,rfl,hfield,hfew,hvalue⟩ := h
  refine ⟨b, lens, part ++ more, by simp, hfield, hfew, ?_⟩
  rw [hvalue, List.length_append]
  omega

theorem Awaits.lt {n : ℕ} {bytes : List UInt8} (h : Awaits n bytes) : n < 128^4 := by
  obtain ⟨b,lens,part,-,-,hfew,hvalue⟩ := h
  have hlt := Base128.value_lt lens
  have hpow : 128^lens.length ≤ 128^4 := Nat.pow_le_pow_right (by decide) hfew
  omega

/-- Whatever follows, as many bytes as are awaited make the packet complete. -/
theorem Awaits.truncated {n : ℕ} {bytes : List UInt8} (h : Awaits n bytes) : Truncated bytes := by
  refine ⟨bytes ++ List.replicate n 0, ?_, List.prefix_append _ _⟩
  apply Awaits.append
  rwa [List.length_replicate]

theorem truncated_nil : Truncated [] := ⟨[0xc0, 0], ⟨0xc0, [0], [], by decide⟩, List.nil_prefix⟩

theorem Truncated.of_prefix {bytes more : List UInt8} (h : Truncated more) (hp : bytes <+: more) :
    Truncated bytes := by
  obtain ⟨packet,hpacket,hmore⟩ := h
  exact ⟨packet, hpacket, hp.trans hmore⟩

/-- What the transport has taken of it. -/
def Chunk.out (c : Chunk) : List UInt8 := c.data.take c.sent

/-- Part of the packet is out and this write did not finish it. -/
def Chunk.torn (c : Chunk) : Prop := c.sent < c.data.length ∧ (0 < c.sent ∨ c.first = false)

instance (c : Chunk) : Decidable c.torn := inferInstanceAs (Decidable (_ ∧ _))

/-- After a torn packet no other packet goes out on that connection, a closing
DISCONNECT excepted; the latest write stands first. -/
def StreamIntact (wire : List Chunk) : Prop :=
  wire.Pairwise fun later earlier => earlier.torn → later.connection = earlier.connection →
    later.sent = 0 ∨ later.site = .disconnect

instance (wire : List Chunk) : Decidable (StreamIntact wire) :=
  inferInstanceAs (Decidable (List.Pairwise _ wire))

/-- The writes of each packet; the latest write and the latest packet stand first. -/
def packets : List Chunk → List (List Chunk)
  | [] => []
  | c :: l =>
    if c.first then [c] :: packets l
    else
      match packets l with
      | [] => [[c]]
      | g :: gs => (c :: g) :: gs

/-- What has gone out of one packet. -/
def outgoing : List Chunk → List UInt8
  | [] => []
  | c :: g => outgoing g ++ c.out

/-- A packet is the beginning of one, and it is complete unless a write has torn it. -/
structure Good (g : List Chunk) : Prop where
  begun : Truncated (outgoing g)
  whole : (∀ c ∈ g, ¬ c.torn) → outgoing g = [] ∨ Awaits 0 (outgoing g)

/-- A write that begins a packet. -/
theorem packets_first {c : Chunk} (hc : c.first = true) (l : List Chunk) :
    packets (c :: l) = [c] :: packets l := by
  rw [packets, if_pos hc]

/-- A write that goes on with one. -/
theorem packets_next {c : Chunk} (hc : c.first = false) {l : List Chunk} {g : List Chunk}
    {gs : List (List Chunk)} (hl : packets l = g :: gs) : packets (c :: l) = (c :: g) :: gs := by
  rw [packets, if_neg (by simp [hc]), hl]

theorem outgoing_single (c : Chunk) : outgoing [c] = c.out := rfl

/-! The packets of all connections, write by write. -/

/-- The writes of one connection. -/
def ofConnection (k : ℕ) (wire : List Chunk) : List Chunk := wire.filter fun c => decide (c.connection = k)

theorem ofConnection_same {c : Chunk} {k : ℕ} (h : c.connection = k) (wire : List Chunk) :
    ofConnection k (c :: wire) = c :: ofConnection k wire :=
  List.filter_cons_of_pos (decide_eq_true h)

theorem ofConnection_other {c : Chunk} {k : ℕ} (h : c.connection ≠ k) (wire : List Chunk) :
    ofConnection k (c :: wire) = ofConnection k wire :=
  List.filter_cons_of_neg (by simpa using h)

/-- Every packet of every connection is good. -/
def AllGood (wire : List Chunk) : Prop := ∀ k, ∀ g ∈ packets (ofConnection k wire), Good g

/-- Every packet is good but the latest of one connection, of which these bytes are out and nothing
is torn. -/
structure Unfinished (k : ℕ) (wire : List Chunk) (bytes : List UInt8) : Prop where
  latest : ∃ g gs, packets (ofConnection k wire) = g :: gs ∧ (∀ c ∈ g, ¬ c.torn) ∧ outgoing g = bytes ∧
    ∀ g' ∈ gs, Good g'
  others : ∀ j, j ≠ k → ∀ g ∈ packets (ofConnection j wire), Good g

/-- A packet that is written whole, or not at all, or torn. -/
theorem AllGood.first {wire : List Chunk} (h : AllGood wire) {c : Chunk} (hc : c.first = true)
    (hgood : Good [c]) : AllGood (c :: wire) := by
  intro k g hg
  by_cases hk : c.connection = k
  · rw [ofConnection_same hk, packets_first hc] at hg
    rcases List.mem_cons.mp hg with rfl | hg
    · exact hgood
    · exact h k g hg
  · rw [ofConnection_other hk] at hg
    exact h k g hg

/-- The first write of a packet that goes on. -/
theorem AllGood.begins {wire : List Chunk} (h : AllGood wire) {c : Chunk} (hc : c.first = true)
    (hwhole : ¬ c.torn) : Unfinished c.connection (c :: wire) c.out where
  latest := by
    refine ⟨[c], packets (ofConnection c.connection wire), ?_, fun c' hm => ?_, rfl, h c.connection⟩
    · rw [ofConnection_same rfl, packets_first hc]
    · rw [List.mem_singleton.mp hm]
      exact hwhole
  others j hj := by
    rw [ofConnection_other hj.symm]
    exact h j

/-- One more write of it. -/
theorem Unfinished.next {k : ℕ} {wire : List Chunk} {bytes : List UInt8} (h : Unfinished k wire bytes) {c : Chunk}
    (hk : c.connection = k) (hc : c.first = false) (hwhole : ¬ c.torn) :
    Unfinished k (c :: wire) (bytes ++ c.out) where
  latest := by
    obtain ⟨g,gs,hg,hnot,hout,hgood⟩ := h.latest
    refine ⟨c :: g, gs, ?_, fun c' hm => ?_, by rw [outgoing, hout], hgood⟩
    · rw [ofConnection_same hk, packets_next hc hg]
    · rcases List.mem_cons.mp hm with rfl | hm
      · exact hwhole
      · exact hnot c' hm
  others j hj := by
    rw [ofConnection_other (by omega)]
    exact h.others j hj

/-- The write that finishes it has been made. -/
theorem Unfinished.ends {k : ℕ} {wire : List Chunk} {bytes : List UInt8} (h : Unfinished k wire bytes)
    (hbytes : Awaits 0 bytes) : AllGood wire := by
  intro j g hg
  by_cases hj : j = k
  · obtain ⟨g',gs,hpackets,-,hout,hgood⟩ := h.latest
    rw [hj, hpackets] at hg
    rcases List.mem_cons.mp hg with rfl | hg
    · exact ⟨hout ▸ hbytes.truncated, fun _ => Or.inr (hout ▸ hbytes)⟩
    · exact hgood g hg
  · exact h.others j hj g hg

/-- The write that tears it. -/
theorem Unfinished.torn {k : ℕ} {wire : List Chunk} {bytes : List UInt8} (h : Unfinished k wire bytes) {c : Chunk}
    (hk : c.connection = k) (hc : c.first = false) (htorn : c.torn)
    (hbytes : Truncated (bytes ++ c.out)) : AllGood (c :: wire) := by
  intro j g hg
  by_cases hj : j = k
  · obtain ⟨g',gs,hpackets,-,hout,hgood⟩ := h.latest
    rw [hj, ofConnection_same hk, packets_next hc hpackets] at hg
    rcases List.mem_cons.mp hg with rfl | hg
    · refine ⟨by rw [outgoing, hout]; exact hbytes, fun hnot => ?_⟩
      exact absurd htorn (hnot c List.mem_cons_self)
    · exact hgood g hg
  · rw [ofConnection_other (by omega)] at hg
    exact h.others j hj g hg

end EspMqtt
