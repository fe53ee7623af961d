import EspMqtt.PropertyMemory

/-! Who owns the memory behind a client: every part of `esp_mqtt_set_config` leaves the client with
exactly the blocks that it points to, and `esp_mqtt_destroy_config` frees them. -/
namespace EspMqtt.Memory
open Ownership

variable {mem : Supply Site} {own : Multiset ℕ}

@[simp] theorem pointer_none : pointer none = none := rfl

@[simp] theorem pointer_some (c : Copy) : pointer (some c) = some c.block := rfl

/-- A copy, if there is one, is a block more; there is none if one is refused. -/
theorem copy_text_spec {site : Site} {text : List UInt8} {Q : Option Copy → Multiset ℕ → Prop}
    (h : ∀ c, c.text = text → Q (some c) (held (some c.block)+own))
    (hno : (∃ n, mem site n = false) → Q none own) : Spec mem own (copy site text) Q := by
  apply Spec.bind (Q := fun block o => o = held block+own ∧ (block = none → ∃ n, mem site n = false))
  · apply Spec.alloc
    · intro b
      exact ⟨by rw [held_some, Multiset.singleton_add], fun hb => by cases hb⟩
    · exact fun hrefused => ⟨by rw [held_none, zero_add], fun _ => hrefused⟩
  · rintro block _ ⟨rfl,hrefused⟩
    apply Spec.pure
    cases block with
    | none =>
      rw [held_none, zero_add]
      exact hno (hrefused rfl)
    | some b => exact h ⟨b, text⟩ rfl

theorem copy_spec {site : Site} {text : List UInt8} {Q : Option Copy → Multiset ℕ → Prop}
    (h : ∀ p, Q p (held (pointer p)+own)) : Spec mem own (copy site text) Q := by
  apply copy_text_spec
  · exact fun c _ => h (some c)
  · intro _
    have hnone := h none
    rwa [pointer_none, held_none, zero_add] at hnone

theorem refused_absurd {site : Site} (hgiven : ∀ n, mem site n = true) (h : ∃ n, mem site n = false) :
    False := by
  obtain ⟨n,hn⟩ := h
  rw [hgiven n] at hn
  cases hn

theorem createString_spec {site : Site} {text : List UInt8} {Q : Option Copy → Multiset ℕ → Prop}
    (h : ∀ p, (∀ c, p = some c → c.text = text) → Q p (held (pointer p)+own)) :
    Spec mem own (createString site text) Q := by
  have hnone := h none fun _ hc => by cases hc
  rw [pointer_none, held_none, zero_add] at hnone
  unfold createString
  split
  · exact Spec.pure hnone
  · apply copy_text_spec
    · exact fun c hc => h (some c) fun c' hc' => by rw [← Option.some.inj hc', hc]
    · exact fun _ => hnone

namespace Field

/-- A string apart, a client owns what it owns without it. -/
theorem own_set (f : Field) (c : Configured) (p : Option Copy) :
    (f.set c p).own = held (pointer p)+(f.set c none).own := by
  cases f <;>
    simp only [set, Configured.own, Configured.pointers, ConfigStorage.alpnPointers, ClientBody.pointers5,
      holds_append, holds_cons, holds_nil, pointer_none, held_none] <;>
    abel

theorem set_get (f : Field) (c : Configured) : f.set c (f.get c) = c := by cases f <;> rfl

theorem own_get (f : Field) (c : Configured) : c.own = held (pointer (f.get c))+(f.set c none).own := by
  have h := own_set f c (f.get c)
  rwa [set_get] at h

theorem get_set (f : Field) (c : Configured) (p : Option Copy) : f.get (f.set c p) = p := by cases f <;> rfl

/-- The URI stays there, unless it is this one that is taken away. -/
theorem set_uri {f : Field} {c : Configured} {p : Option Copy} (hp : f = .uri → p.isSome)
    (h : c.config.uri.isSome) : (f.set c p).config.uri.isSome := by
  cases f with
  | uri => exact hp rfl
  | _ => exact h

end Field

/-- A client's configuration is allocated. -/
theorem config_block_mem (c : Configured) : c.config.block ∈ c.own := by
  simp only [Configured.own, Configured.pointers, holds_append, holds_cons, held_some, Multiset.mem_add,
    Multiset.mem_singleton, true_or, or_true]

/-- So is a string of its own. -/
theorem read_spec {p : Option Copy} {Q : Unit → Multiset ℕ → Prop} (hp : p.isSome)
    (hle : held (pointer p) ≤ own) (h : Q () own) : Spec mem own (read p) Q := by
  cases p with
  | none => cases hp
  | some c => exact Spec.touch (Multiset.singleton_le.mp hle) h

theorem Field.held_le (f : Field) (c : Configured) : held (pointer (f.get c)) ≤ c.own := by
  rw [f.own_get c]
  exact Multiset.le_add_right _ _

/-- The list of protocols has the length that the client notes, and ends with `NULL`. -/
def Listed (s : ConfigStorage) : Prop :=
  match s.alpnProtos with
  | none => s.numAlpnProtos = 0
  | some a => a.entries.drop s.numAlpnProtos = [none]

/-- What a part of `esp_mqtt_set_config` that is about something else leaves as it is. -/
structure Steady (c d : Configured) : Prop where
  lost : d.lost = c.lost
  mqtt5 : d.mqtt5Config = c.mqtt5Config
  event : d.eventProperty = c.eventProperty
  version : d.information.protocolVer = c.information.protocolVer
  ifName : d.config.ifName = c.config.ifName
  password : d.config.clientkeyPassword = c.config.clientkeyPassword

theorem Steady.refl (c : Configured) : Steady c c := ⟨rfl, rfl, rfl, rfl, rfl, rfl⟩

theorem Steady.trans {c d e : Configured} (h : Steady c d) (h' : Steady d e) : Steady c e :=
  ⟨h'.lost.trans h.lost, h'.mqtt5.trans h.mqtt5, h'.event.trans h.event, h'.version.trans h.version,
    h'.ifName.trans h.ifName, h'.password.trans h.password⟩

/-- The two buffers are never refused. -/
structure BuffersGiven (mem : Supply Site) : Prop where
  output : ∀ n, mem .buffer n = true
  input : ∀ n, mem .inBuffer n = true

/-- How a part ends: it owns what it points to and leaves the rest, and its error is one, unless a
buffer is refused. -/
structure StageEnd (mem : Supply Site) (c : Configured) (r : Option EspErr × Configured) (o : Multiset ℕ) :
    Prop where
  own : o = r.2.own
  listed : Listed r.2.config
  steady : Steady c r.2
  uri : r.1 = none → c.config.uri.isSome → r.2.config.uri.isSome
  error : BuffersGiven mem → ∀ err ∈ r.1, err ≠ .ok

def Ordinary (mem : Supply Site) (stage : Stage) : Prop :=
  ∀ c, Listed c.config → Spec mem c.own (stage c) (StageEnd mem c)

theorem StageEnd.skip {c : Configured} (hc : Listed c.config) : StageEnd mem c (none, c) c.own :=
  ⟨rfl, hc, Steady.refl c, fun _ h => h, fun _ => nofun⟩

theorem onStorage_spec {stage : Stage} {c : Configured} {Q : Option EspErr × Configured → Multiset ℕ → Prop}
    (h : Spec mem c.own (stage c) Q) : Spec mem c.own (onStorage stage c) Q := by
  apply Spec.bind (Spec.touch (Q := fun _ o => o = c.own) (config_block_mem c) rfl)
  rintro - _ rfl
  exact h

theorem onStorage_ordinary {stage : Stage} (h : Ordinary mem stage) : Ordinary mem (onStorage stage) :=
  fun c hc => onStorage_spec (h c hc)

/-- The error of a copy. -/
theorem refusedCopy_error (p : Option Copy) :
    ∀ err ∈ (if p.isNone then some EspErr.noMem else none), err ≠ .ok := by
  intro err herr
  split at herr
  · rw [← Option.some.inj herr]
    decide
  · cases herr

/-- A string other than the two that are only overwritten. -/
def Field.Replaced (f : Field) : Prop := f ≠ .ifName ∧ f ≠ .clientkeyPassword

theorem Field.Replaced.steady {f : Field} (hf : f.Replaced) (c : Configured) (p : Option Copy) :
    Steady c (f.set c p) := by
  cases f with
  | ifName => exact absurd rfl hf.1
  | clientkeyPassword => exact absurd rfl hf.2
  | _ => exact ⟨rfl, rfl, rfl, rfl, rfl, rfl⟩

theorem Field.listed (f : Field) (c : Configured) (p : Option Copy) :
    Listed (f.set c p).config ↔ Listed c.config := by
  cases f <;> rfl

section Stages

/-- A new string where there is none any more. -/
theorem setCopy_spec {f : Field} (hf : f.Replaced) {text : List UInt8} {c : Configured}
    (hc : Listed c.config) :
    Spec mem (f.set c none).own
      (do
        let copied ← copy (.field f) text
        return (if copied.isNone then some EspErr.noMem else none, f.set c copied))
      (fun r o => StageEnd mem c r o ∧ (r.1 = none → (f.get r.2).isSome)) := by
  apply Spec.bind (Q := fun p o => o = (f.set c p).own)
  · apply copy_spec
    intro p
    rw [← f.own_set]
  · rintro p _ rfl
    have hcopied : (if p.isNone then some EspErr.noMem else none) = none → p.isSome := by
      cases p with
      | none => exact fun h => by cases h
      | some p => exact fun _ => rfl
    refine Spec.pure ⟨⟨rfl, (f.listed c p).mpr hc, hf.steady c p, ?_, fun _ => refusedCopy_error p⟩, ?_⟩
    · exact fun hnone => Field.set_uri fun _ => hcopied hnone
    · intro hnone
      rw [f.get_set]
      exact hcopied hnone

/-- A string that has been given is there. -/
theorem setIfConfig_spec {f : Field} (hf : f.Replaced) (new : Option (List UInt8)) {c : Configured}
    (hc : Listed c.config) :
    Spec mem c.own (setIfConfig f new c) fun r o =>
      StageEnd mem c r o ∧ (r.1 = none → new.isSome → (f.get r.2).isSome) := by
  cases new with
  | none => exact Spec.pure ⟨.skip hc, fun _ h => by cases h⟩
  | some new =>
    rw [f.own_get c]
    apply Spec.bind (Q := fun _ o => o = (f.set c none).own)
    · exact Spec.free rfl
    · rintro - _ rfl
      exact (setCopy_spec hf hc).mono fun _ _ h => ⟨h.1, fun hnone _ => h.2 hnone⟩

theorem setIfConfig_ordinary {f : Field} (hf : f.Replaced) (new : Option (List UInt8)) :
    Ordinary mem (setIfConfig f new) :=
  fun _ hc => (setIfConfig_spec hf new hc).mono fun _ _ h => h.1

/-- An assignment that no pointer is in. -/
theorem assign_ordinary {f : Configured → Configured} (h : ∀ c, (f c).own = c.own)
    (hlisted : ∀ c, Listed c.config → Listed (f c).config) (hsteady : ∀ c, Steady c (f c))
    (huri : ∀ c, (f c).config.uri = c.config.uri) : Ordinary mem (assign f) :=
  fun c hc => Spec.pure ⟨(h c).symm, hlisted c hc, hsteady c, fun _ hsome => (huri c).symm ▸ hsome,
    fun _ => nofun⟩

theorem setTask_ordinary (b : Build) (config : ClientConfig) : Ordinary mem (assign (setTask b config)) :=
  assign_ordinary (fun _ => rfl) (fun _ h => h) (fun _ => ⟨rfl, rfl, rfl, rfl, rfl, rfl⟩) fun _ => rfl

theorem setNetwork_ordinary (config : ClientConfig) : Ordinary mem (assign (setNetwork config)) :=
  assign_ordinary (fun _ => rfl) (fun _ h => h) (fun _ => ⟨rfl, rfl, rfl, rfl, rfl, rfl⟩) fun _ => rfl

theorem setVerification_ordinary (config : ClientConfig) :
    Ordinary mem (assign (setVerification config)) :=
  assign_ordinary (fun _ => rfl) (fun _ h => h) (fun _ => ⟨rfl, rfl, rfl, rfl, rfl, rfl⟩) fun _ => rfl

theorem checkProtocol_ordinary (b : Build) : Ordinary mem (checkProtocol b) := by
  refine fun c hc => Spec.pure ⟨rfl, hc, Steady.refl c, fun _ h => h, fun _ err herr => ?_⟩
  change err ∈ (if _ then _ else _) at herr
  split at herr
  · rw [← Option.some.inj herr]
    decide
  · cases herr

theorem own_buffer (c : Configured) (p : Option ℕ) :
    ({c with buffer := p} : Configured).own = held p+({c with buffer := none} : Configured).own := by
  simp only [Configured.own, Configured.pointers, ConfigStorage.alpnPointers, ClientBody.pointers5,
    holds_append, holds_cons, holds_nil, held_none]
  abel

theorem own_inBuffer (c : Configured) (p : Option ℕ) :
    ({c with inBuffer := p} : Configured).own = held p+({c with inBuffer := none} : Configured).own := by
  simp only [Configured.own, Configured.pointers, ConfigStorage.alpnPointers, ClientBody.pointers5,
    holds_append, holds_cons, holds_nil, held_none]
  abel

/-- A block in the place of another. -/
theorem replaceBlock_spec {site : Site} {old : Option ℕ} {Q : Option ℕ → Multiset ℕ → Prop}
    {α : Type} {rest : Option ℕ → Prog Site α} {R : α → Multiset ℕ → Prop}
    (h : ∀ p, (p = none → ∃ n, mem site n = false) → Q p (held p+own))
    (hrest : ∀ p o, Q p o → Spec mem o (rest p) R) :
    Spec mem (held old+own)
      (do
        Prog.free old
        let p ← Prog.alloc site
        rest p) R := by
  apply Spec.bind (Q := fun _ o => o = own)
  · exact Spec.free rfl
  · rintro - _ rfl
    refine Spec.bind (Q := Q) (Spec.alloc (fun b => ?_) fun hrefused => ?_) hrest
    · have hsome := h (some b) fun hb => by cases hb
      rwa [held_some, Multiset.singleton_add] at hsome
    · have hnone := h none fun _ => hrefused
      rwa [held_none, zero_add] at hnone

/-- The error of a buffer is `ESP_OK`. -/
theorem setBuffers_ordinary (b : Build) (config : ClientConfig) : Ordinary mem (setBuffers b config) := by
  intro c hc
  have hown := own_buffer c c.buffer
  change c.own = _ at hown
  rw [hown]
  apply replaceBlock_spec (Q := fun p o => o = ({c with buffer := p} : Configured).own ∧
    (p = none → ∃ n, mem .buffer n = false))
  · exact fun p hp => ⟨(own_buffer c p).symm, hp⟩
  rintro p _ ⟨rfl,hp⟩
  split
  · rename_i hnone
    exact Spec.pure ⟨rfl, hc, ⟨rfl, rfl, rfl, rfl, rfl, rfl⟩, fun _ h => h, fun hgiven =>
      (refused_absurd hgiven.output (hp (Option.isNone_iff_eq_none.mp hnone))).elim⟩
  · have hin := own_inBuffer {c with buffer := p} c.inBuffer
    change ({c with buffer := p} : Configured).own = _ at hin
    rw [hin]
    apply replaceBlock_spec (Q := fun q o => o = ({c with buffer := p, inBuffer := q} : Configured).own ∧
      (q = none → ∃ n, mem .inBuffer n = false))
    · exact fun q hq => ⟨(own_inBuffer {c with buffer := p} q).symm, hq⟩
    rintro q _ ⟨rfl,hq⟩
    split
    · rename_i hnone
      exact Spec.pure ⟨rfl, hc, ⟨rfl, rfl, rfl, rfl, rfl, rfl⟩, fun _ h => h, fun hgiven =>
        (refused_absurd hgiven.input (hq (Option.isNone_iff_eq_none.mp hnone))).elim⟩
    · exact Spec.pure ⟨rfl, hc, ⟨rfl, rfl, rfl, rfl, rfl, rfl⟩, fun _ h => h, fun _ => nofun⟩

theorem setClientId_ordinary (id : List UInt8) (config : ClientConfig) :
    Ordinary mem (setClientId id config) := by
  have hreplaced : Field.Replaced .clientId := by constructor <;> decide
  intro c hc
  unfold setClientId
  split
  · exact Spec.pure (.skip hc)
  · split
    · exact setIfConfig_ordinary hreplaced _ c hc
    · split
      · exact Spec.pure (.skip hc)
      · rename_i hnone
        have hget : Field.clientId.get c = none := Option.not_isSome_iff_eq_none.mp hnone
        have hown : (Field.clientId.set c none).own = c.own := by rw [← hget, Field.set_get]
        rw [← hown]
        exact (setCopy_spec hreplaced hc).mono fun _ _ h => h.1

theorem setWillMessage_ordinary (msg : Option (List UInt8)) : Ordinary mem (setWillMessage msg) := by
  intro c hc
  cases msg with
  | none => exact Spec.pure (.skip hc)
  | some msg =>
    apply Spec.bind (setIfConfig_ordinary (by constructor <;> decide) (some msg) c hc)
    rintro r _ ⟨rfl,hlisted,hsteady,huri,herror⟩
    apply Spec.pure
    split
    · exact ⟨rfl, hlisted, hsteady.trans ⟨rfl, rfl, rfl, rfl, rfl, rfl⟩, huri, herror⟩
    · exact ⟨rfl, hlisted, hsteady, huri, herror⟩

theorem setTransportScheme_ordinary (b : Build) (transport : Option Scheme) :
    Ordinary mem (setTransportScheme b transport) := by
  have hreplaced : Field.Replaced .scheme := by constructor <;> decide
  intro c hc
  cases transport with
  | none => exact Spec.pure (.skip hc)
  | some k =>
    rw [Field.scheme.own_get c]
    apply Spec.bind (Q := fun _ o => o = (Field.scheme.set c none).own)
    · exact Spec.free rfl
    · rintro - _ rfl
      cases hover : b.schemeOver k with
      | none => exact Spec.pure ⟨rfl, hc, hreplaced.steady c none, fun _ h => h, fun _ => nofun⟩
      | some name => exact (setCopy_spec hreplaced hc).mono fun _ _ h => h.1

/-! The protocols. -/

theorem own_alpn (c : Configured) (a : Option AlpnProtos) (n : ℕ) :
    ({c with config := {c.config with alpnProtos := a, numAlpnProtos := n}} : Configured).own =
      holds ({c.config with alpnProtos := a, numAlpnProtos := n} : ConfigStorage).alpnPointers+
        ({c with config := {c.config with alpnProtos := none, numAlpnProtos := 0}} : Configured).own := by
  simp only [Configured.own, Configured.pointers, ConfigStorage.alpnPointers, ClientBody.pointers5,
    holds_append, holds_cons, holds_nil]
  abel

theorem freeAlpnProtos_spec {s : ConfigStorage} (hs : Listed s) {Q : Unit → Multiset ℕ → Prop}
    (h : Q () own) : Spec mem (holds s.alpnPointers+own) (freeAlpnProtos s) Q := by
  unfold Listed at hs
  unfold freeAlpnProtos ConfigStorage.alpnPointers
  split
  · rename_i hnone
    rw [hnone] at hs
    rw [if_pos hs, holds_nil, zero_add]
    exact Spec.pure h
  · rename_i a hsome
    rw [hsome] at hs
    change a.entries.drop s.numAlpnProtos = [none] at hs
    have hle : s.numAlpnProtos ≤ a.entries.length := by
      by_contra hlt
      rw [List.drop_eq_nil_of_le (by omega)] at hs
      exact absurd hs (by simp)
    have hentries : a.entries.map pointer = (a.entries.take s.numAlpnProtos).map pointer ++ [none] := by
      conv_lhs => rw [← List.take_append_drop s.numAlpnProtos a.entries, hs, List.map_append]
      rfl
    rw [if_pos hle]
    refine Spec.bind (Spec.touch (Q := fun _ o => o = holds (a.entries.map pointer ++ [some a.block])+own) ?_ rfl) ?_
    · rw [holds_append, holds_cons, held_some]
      simp
    rintro - _ rfl
    rw [hentries, holds_append, holds_append, holds_cons, holds_nil, held_none, add_zero,
      add_zero, holds_cons, holds_nil, add_zero, add_assoc]
    apply Spec.bind (Q := fun _ o => o = held (some a.block)+own)
    · exact Spec.freeAll rfl
    · rintro - _ rfl
      exact Spec.free h

theorem copyAlpn_spec (protos : List CString) (own : Multiset ℕ) :
    Spec mem own (copyAlpn protos) fun r o =>
      o = holds (r.2.map pointer)+own ∧ r.2.drop protos.length = [none] := by
  induction protos generalizing own with
  | nil =>
    apply Spec.pure
    refine ⟨?_, rfl⟩
    rw [List.map_cons, List.map_nil, pointer_none, holds_cons, holds_nil, held_none, zero_add, zero_add]
  | cons proto protos ih =>
    apply Spec.bind (Q := fun p o => o = held (pointer p)+own)
    · exact copy_spec fun _ => rfl
    · rintro p _ rfl
      split
      · rename_i hnone
        apply Spec.pure
        rw [Option.isNone_iff_eq_none] at hnone
        subst hnone
        refine ⟨?_, ?_⟩
        · have hzero : ∀ n, holds ((List.replicate n (none : Option Copy)).map pointer) = 0 := by
            intro n
            induction n with
            | zero => rfl
            | succ n ihn => rw [List.replicate_succ, List.map_cons, holds_cons, ihn]; rfl
          rw [List.map_cons, holds_cons, hzero, add_zero]
        · rw [List.length_cons, List.drop_succ_cons, List.drop_replicate, Nat.add_sub_cancel_left]
          rfl
      · apply Spec.bind (ih _)
        rintro r _ ⟨rfl,hdrop⟩
        apply Spec.pure
        refine ⟨?_, ?_⟩
        · rw [List.map_cons, holds_cons]
          abel
        · rw [List.length_cons, List.drop_succ_cons]
          exact hdrop

/-- The list itself must not be refused: the failure branch would go through a list that is not
there. -/
theorem setAlpnProtos_ordinary (halpn : ∀ n, mem .alpnProtos n = true) (protos : Option (List CString)) :
    Ordinary mem (setAlpnProtos protos) := by
  intro c hc
  cases protos with
  | none => exact Spec.pure (.skip hc)
  | some protos =>
    have hown := own_alpn c c.config.alpnProtos c.config.numAlpnProtos
    change c.own = holds c.config.alpnPointers+_ at hown
    rw [hown]
    apply Spec.bind (Q := fun _ o => o =
      ({c with config := {c.config with alpnProtos := none, numAlpnProtos := 0}} : Configured).own)
    · exact freeAlpnProtos_spec hc rfl
    · rintro - _ rfl
      apply Spec.bind (Q := fun p o => ∃ b, p = some b ∧ o = b ::ₘ
        ({c with config := {c.config with alpnProtos := none, numAlpnProtos := 0}} : Configured).own)
      · exact Spec.alloc_given halpn fun b => ⟨b, rfl, rfl⟩
      · rintro _ _ ⟨b,rfl,rfl⟩
        apply Spec.bind (copyAlpn_spec protos _)
        rintro r _ ⟨rfl,hdrop⟩
        apply Spec.pure
        refine ⟨?_, hdrop, ⟨rfl, rfl, rfl, rfl, rfl, rfl⟩, fun _ h => h, fun _ err herr => ?_⟩
        · have hlist := own_alpn c (some ⟨b, r.2⟩) protos.length
          change _ = holds (r.2.map pointer ++ [some b])+_ at hlist
          dsimp only
          rw [hlist, holds_append, holds_cons, holds_nil, held_some, add_zero, ← Multiset.singleton_add,
            add_assoc]
        · dsimp only at herr
          split at herr
          · cases herr
          · rw [← Option.some.inj herr]
            decide

/-! The URI. -/

section Uri
variable {http : (s : CString) → Option (HttpParserUrl s.text)}

theorem decodedPart_spec {site : Site} (s : CString) {Q : Option (Option Copy) → Multiset ℕ → Prop}
    (hbad : Q none own) (h : ∀ p, Q (some p) (held (pointer p)+own)) :
    Spec mem own (decodedPart site s.text) Q := by
  unfold decodedPart
  rcases PercentEncoding.encodes_or_bad s.text with ⟨bytes,henc⟩ | hno
  · obtain ⟨buffer,hcall,-⟩ := s.decode_encodes henc
    rw [CString.memory] at hcall
    rw [hcall]
    dsimp only
    rw [if_neg (by omega)]
    apply Spec.bind (Q := fun p o => o = held (pointer p)+own)
    · exact copy_spec fun _ => rfl
    · rintro p _ rfl
      exact Spec.pure (h p)
  · obtain ⟨buffer,hcall⟩ := s.decode_bad hno
    rw [CString.memory] at hcall
    rw [hcall]
    dsimp only
    rw [if_pos (by omega)]
    exact Spec.pure hbad

theorem newCredentials_spec (info : CString) :
    Spec mem own (newCredentials info.text) fun r o =>
      o = held (pointer r.2.2)+(held (pointer r.2.1)+own) := by
  unfold newCredentials
  apply Spec.bind (Q := fun pass o => o = held (pointer (pass.getD none))+own)
  · unfold newPassword
    split
    · exact Spec.pure (by rw [Option.getD_some, pointer_none, held_none, zero_add])
    · rename_i pass hpass
      apply decodedPart_spec (info.part (passwordPart_sublist hpass))
      · rw [Option.getD_none, pointer_none, held_none, zero_add]
      · exact fun _ => rfl
  · rintro pass _ rfl
    cases pass with
    | none =>
      apply Spec.pure
      rw [pointer_none, held_none, zero_add]
      rfl
    | some newPassword =>
      apply Spec.bind (Q := fun user o => o =
        held (pointer (user.getD none))+(held (pointer newPassword)+own))
      · apply decodedPart_spec (info.part (userPart_sublist info.text))
        · rw [Option.getD_none, pointer_none, held_none, zero_add]
          rfl
        · exact fun _ => rfl
      · rintro user _ rfl
        cases user with
        | none =>
          apply Spec.pure
          dsimp only [Option.getD_none, pointer_none, held_none]
          abel
        | some newUsername => exact Spec.pure (by dsimp only [Option.getD_some]; abel)

/-- The blocks of the copies. -/
def NewParts.pointers (n : NewParts) : List (Option ℕ) :=
  [some n.scheme.block, some n.host.block, pointer n.path, pointer n.username, pointer n.password,
    pointer n.userInfo]

/-- What a call that got as far as the lock owns beside. -/
def Prepared (own : Multiset ℕ) : Except EspErr NewParts → Multiset ℕ → Prop
  | .error err, o => err ≠ .ok ∧ o = own
  | .ok n, o => o = holds n.pointers+own

theorem newPath_spec (path query : List UInt8) (own : Multiset ℕ) :
    Spec mem own (newPath path query) fun r o => o = held (pointer r.2)+own := by
  unfold newPath
  split
  · apply Spec.bind (Q := fun p o => o = held (pointer p)+own)
    · exact copy_spec fun _ => rfl
    · rintro p _ rfl
      exact Spec.pure rfl
  · apply Spec.pure
    rw [pointer_none, held_none, zero_add]

/-- Whatever fails on the way, the copies made so far are freed. -/
theorem prepareUri_spec (uri : CString) : Spec mem own (prepareUri http uri) (Prepared own) := by
  unfold prepareUri
  cases http uri with
  | none => exact Spec.pure ⟨by decide, rfl⟩
  | some puri =>
    apply Spec.bind (Q := fun p o => o = held (pointer p)+own)
    · exact createString_spec fun _ _ => rfl
    rintro newScheme _ rfl
    apply Spec.bind (Q := fun p o => o = held (pointer p)+(held (pointer newScheme)+own))
    · exact createString_spec fun _ _ => rfl
    rintro newHost _ rfl
    have hcleanup : Spec mem (held (pointer newHost)+(held (pointer newScheme)+own))
        (do
          Prog.freeAll [pointer newScheme, pointer newHost]
          return (Except.error EspErr.noMem : Except EspErr NewParts)) (Prepared own) := by
      rw [show held (pointer newHost)+(held (pointer newScheme)+own) =
        holds [pointer newScheme, pointer newHost]+own from by
          rw [holds_cons, holds_cons, holds_nil]; abel]
      refine Spec.bind (Q := fun _ o => o = own) (Spec.freeAll rfl) ?_
      rintro - _ rfl
      exact Spec.pure ⟨by decide, rfl⟩
    cases newScheme with
    | none => exact hcleanup
    | some scheme =>
    cases newHost with
    | none => exact hcleanup
    | some host =>
      apply Spec.bind (newPath_spec _ _ _)
      rintro ⟨made,path⟩ _ rfl
      cases made with
      | false =>
        dsimp only
        rw [if_pos rfl]
        rw [show held (pointer path)+(held (pointer (some host))+(held (pointer (some scheme))+own)) =
          holds [some scheme.block, some host.block, pointer path]+own from by
            rw [holds_cons, holds_cons, holds_cons, holds_nil, pointer_some, pointer_some]; abel]
        refine Spec.bind (Q := fun _ o => o = own) (Spec.freeAll rfl) ?_
        rintro - _ rfl
        exact Spec.pure ⟨by decide, rfl⟩
      | true =>
        dsimp only
        rw [if_neg (by decide)]
        apply Spec.bind (Q := fun p o => (∀ c, p = some c → c.text = puri.field .userinfo) ∧ o =
          held (pointer p)+(held (pointer path)+(held (pointer (some host))+(held (pointer (some scheme))+own))))
        · exact createString_spec fun _ hp => ⟨hp, rfl⟩
        rintro userInfo _ ⟨htext,rfl⟩
        cases userInfo with
        | none =>
          apply Spec.pure
          simp only [Prepared, NewParts.pointers, holds_cons, holds_nil, pointer_none, pointer_some, held_none]
          abel
        | some info =>
          have hinfo : info.text = (uri.part (field_sublist puri .userinfo)).text := htext info rfl
          dsimp only
          rw [hinfo]
          apply Spec.bind (newCredentials_spec _)
          rintro ⟨decoded,password,username⟩ _ rfl
          cases decoded with
          | true =>
            apply Spec.pure
            simp only [Prepared, NewParts.pointers, holds_cons, holds_nil, pointer_some]
            abel
          | false =>
            dsimp only
            rw [if_neg (by decide)]
            rw [show held (pointer username)+(held (pointer password)+(held (pointer (some info))+
                (held (pointer path)+(held (pointer (some host))+(held (pointer (some scheme))+own))))) =
              holds [some scheme.block, some host.block, pointer path, pointer password, pointer username,
                some info.block]+own from by
                  simp only [holds_cons, holds_nil, pointer_some]; abel]
            refine Spec.bind (Q := fun _ o => o = own) (Spec.freeAll rfl) ?_
            rintro - _ rfl
            exact Spec.pure ⟨by decide, rfl⟩

/-- What the parts of a URI leave of the client. -/
structure Renewed (c d : Configured) : Prop where
  listed : Listed d.config
  steady : Steady c d
  uri : c.config.uri.isSome → d.config.uri.isSome

theorem Renewed.refl {c : Configured} (hc : Listed c.config) : Renewed c c := ⟨hc, Steady.refl c, fun h => h⟩

theorem Renewed.trans {c d e : Configured} (h : Renewed c d) (h' : Renewed d e) : Renewed c e :=
  ⟨h'.listed, h.steady.trans h'.steady, fun hsome => h'.uri (h.uri hsome)⟩

/-- What is left of the client when a copy has been put in its place. -/
def Became (c : Configured) (more : Multiset ℕ) (d : Configured) (o : Multiset ℕ) : Prop :=
  o = d.own+more ∧ Renewed c d

theorem replace_spec {f : Field} (hf : f.Replaced) {c : Configured} (hc : Listed c.config)
    (new : Option Copy) (hnew : f = .uri → new.isSome) (more : Multiset ℕ) :
    Spec mem (held (pointer new)+(c.own+more)) (replace f new c) (Became c more) := by
  rw [f.own_get c, show held (pointer new)+(held (pointer (f.get c))+(f.set c none).own+more) =
    held (pointer (f.get c))+(held (pointer new)+(f.set c none).own+more) from by abel, ← f.own_set]
  apply Spec.bind (Q := fun _ o => o = (f.set c new).own+more)
  · exact Spec.free rfl
  · rintro - _ rfl
    exact Spec.pure ⟨rfl, (f.listed c new).mpr hc, hf.steady c new, Field.set_uri hnew⟩

theorem replaceIf_spec {f : Field} (hf : f.Replaced) {c : Configured} (hc : Listed c.config)
    (new : Option Copy) (more : Multiset ℕ) :
    Spec mem (held (pointer new)+(c.own+more)) (replaceIf f new c) (Became c more) := by
  cases new with
  | none =>
    rw [pointer_none, held_none, zero_add]
    exact Spec.pure ⟨rfl, hc, Steady.refl c, fun h => h⟩
  | some new => exact replace_spec hf hc (some new) (fun _ => rfl) more

theorem commitUri_spec (uri : CString) (own : Bool) (n : NewParts) {c : Configured} (hc : Listed c.config) :
    Spec mem (holds n.pointers+c.own) (commitUri http uri own n c) fun r o =>
      o = r.2.own ∧ Renewed c r.2 := by
  unfold commitUri
  apply Spec.bind (Q := fun p o => o = held (pointer p)+(holds n.pointers+c.own))
  · unfold newUri
    split
    · exact Spec.pure (by rw [pointer_none, held_none, zero_add])
    · exact copy_spec fun _ => rfl
  rintro copied _ rfl
  split
  · rename_i hfailed
    rw [Option.isNone_iff_eq_none.mp hfailed.2, pointer_none, held_none, zero_add]
    refine Spec.bind (Q := fun _ o => o = c.own) (Spec.freeAll rfl) ?_
    rintro - _ rfl
    exact Spec.pure ⟨rfl, .refl hc⟩
  -- each copy goes from the local pointer to the client's
  · have husername : Field.Replaced .username := by constructor <;> decide
    have hpassword : Field.Replaced .password := by constructor <;> decide
    rw [show held (pointer copied)+(holds n.pointers+c.own) = held (pointer copied)+(c.own+
        (held (pointer (some n.scheme))+(held (pointer (some n.host))+(held (pointer n.path)+
          (held (pointer n.username)+(held (pointer n.password)+held (pointer n.userInfo))))))) from by
        simp only [NewParts.pointers, holds_cons, holds_nil, pointer_some]; abel]
    refine Spec.bind (Spec.touch (Q := fun _ o => o = _) ?_ rfl) ?_
    · exact Multiset.mem_add.mpr (Or.inr (Multiset.mem_add.mpr (Or.inl (config_block_mem c))))
    rintro - _ rfl
    apply Spec.bind (replaceIf_spec (by constructor <;> decide) hc copied _)
    rintro d _ ⟨rfl,hd⟩
    rw [add_left_comm]
    apply Spec.bind (replace_spec (by constructor <;> decide) hd.listed (some n.scheme) (fun _ => rfl) _)
    rintro d₁ _ ⟨rfl,hd₁⟩
    rw [add_left_comm]
    apply Spec.bind (replace_spec (by constructor <;> decide) hd₁.listed (some n.host) (fun _ => rfl) _)
    rintro d₂ _ ⟨rfl,hd₂⟩
    rw [add_left_comm]
    apply Spec.bind (replace_spec (f := .path) (by constructor <;> decide) hd₂.listed n.path nofun _)
    rintro d₃ _ ⟨rfl,hd₃⟩
    rw [add_left_comm]
    -- the port is not a pointer
    refine Spec.bind (Q := Became d₃ (held (pointer n.password)+held (pointer n.userInfo))) ?_ ?_
    · have hport : Renewed d₃ (setPort http uri d₃) :=
        ⟨hd₃.listed, ⟨rfl, rfl, rfl, rfl, rfl, rfl⟩, fun h => h⟩
      refine (replaceIf_spec husername (c := setPort http uri d₃) hport.listed n.username _).mono ?_
      rintro d₄ _ ⟨rfl,hd₄⟩
      exact ⟨rfl, hport.trans hd₄⟩
    · rintro d₄ _ ⟨rfl,hd₄⟩
      rw [add_left_comm]
      apply Spec.bind (replaceIf_spec hpassword hd₄.listed n.password _)
      rintro d₅ _ ⟨rfl,hd₅⟩
      rw [add_comm]
      refine Spec.bind (Q := fun _ o => o = d₅.own) (Spec.free rfl) ?_
      rintro - _ rfl
      exact Spec.pure ⟨rfl, ((((hd.trans hd₁).trans hd₂).trans hd₃).trans hd₄).trans hd₅⟩

theorem setUri_spec (uri : CString) (own : Bool) {c : Configured} (hc : Listed c.config) :
    Spec mem c.own (setUri http uri own c) fun r o => o = r.2.own ∧ Renewed c r.2 := by
  apply Spec.bind (prepareUri_spec uri)
  rintro (err | n) o ho
  · obtain ⟨-,rfl⟩ := ho
    exact Spec.pure ⟨rfl, .refl hc⟩
  · change o = holds n.pointers+c.own at ho
    subst ho
    exact commitUri_spec uri own n hc

/-- The client's own URI has to be there. -/
theorem setUriLast_spec (uri : Option CString) {c : Configured} (hc : Listed c.config)
    (huri : uri.isSome → c.config.uri.isSome) :
    Spec mem c.own (setUriLast http uri c) (StageEnd mem c) := by
  cases uri with
  | none => exact Spec.pure (.skip hc)
  | some uri =>
    apply Spec.bind (read_spec (Q := fun _ o => o = c.own) (huri rfl) (Field.uri.held_le c) rfl)
    rintro - _ rfl
    apply Spec.bind (setUri_spec uri true hc)
    rintro r _ ⟨rfl,hr⟩
    refine Spec.pure ⟨rfl, hr.listed, hr.steady, fun _ => hr.uri, fun _ err herr => ?_⟩
    dsimp only at herr
    split at herr
    · cases herr
    · rw [← Option.some.inj herr]
      decide

end Uri

end Stages

end EspMqtt.Memory
