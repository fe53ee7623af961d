import Mathlib.Tactic

/-! `esp_transport` as the client sees it. The environment decides every
result: `reads` and `writes` list what the coming calls return, `connects` the
outcome of the coming connection attempts with the bytes that peer will send. -/
namespace EspMqtt

/-- What the environment lets one `esp_transport_read` do; `chunk k` hands over
at most `k+1` bytes, so a read that gets data gets at least one byte. -/
inductive ReadChoice where
  | timeout | fin | error
  | chunk (k : ℕ)
  deriving DecidableEq, Repr

inductive ReadResult where
  | timeout | fin | error
  | bytes (bs : List UInt8)
  deriving DecidableEq, Repr

/-- What the environment lets one `esp_transport_write` do; `accept k` takes at
most `k+1` bytes. -/
inductive WriteChoice where
  | timeout | error
  | accept (k : ℕ)
  deriving DecidableEq, Repr

inductive WriteResult where
  | timeout | error
  | wrote (n : ℕ)
  deriving DecidableEq, Repr

structure Transport where
  isOpen : Bool
  stream : List UInt8
  reads : List ReadChoice
  writes : List WriteChoice
  connects : List (Option (List UInt8))
  deriving DecidableEq, Repr

/-- `esp_transport_read` with room for `n` bytes. No choice left means that
nothing arrives any more. -/
def espTransportRead (t : Transport) (n : ℕ) : ReadResult × Transport :=
  if t.isOpen then
    match t.reads with
    | [] => (.timeout, t)
    | .timeout :: rs => (.timeout, {t with reads := rs})
    | .fin :: rs => (.fin, {t with reads := rs})
    | .error :: rs => (.error, {t with reads := rs})
    | .chunk k :: rs =>
      let m := min (k+1) (min n t.stream.length)
      if m = 0 then (.timeout, {t with reads := rs})
      else (.bytes (t.stream.take m), {t with reads := rs, stream := t.stream.drop m})
  else (.error, t)

/-- `esp_transport_write` of `len` bytes. A closed transport reports an error;
no choice left means that everything is taken. -/
def espTransportWrite (t : Transport) (len : ℕ) : WriteResult × Transport :=
  if t.isOpen then
    match t.writes with
    | [] => (.wrote len, t)
    | .timeout :: ws => (.timeout, {t with writes := ws})
    | .error :: ws => (.error, {t with writes := ws})
    | .accept k :: ws => (.wrote (min (k+1) len), {t with writes := ws})
  else (.error, t)

def espTransportClose (t : Transport) : Transport := {t with isOpen := false}

/-- `esp_transport_connect`; the first component is success. -/
def espTransportConnect (t : Transport) : Bool × Transport :=
  match t.connects with
  | [] => (false, t)
  | none :: cs => (false, {t with connects := cs})
  | some s :: cs => (true, {t with isOpen := true, stream := s, connects := cs})

/-- A read takes a nonempty run of at most `n` bytes off the stream, or nothing. -/
theorem espTransportRead_cases (t : Transport) (n : ℕ) :
    (∃ bs, (espTransportRead t n).1 = .bytes bs ∧ bs ≠ [] ∧ bs.length ≤ n ∧
      t.stream = bs ++ (espTransportRead t n).2.stream) ∨
    ((∀ bs, (espTransportRead t n).1 ≠ .bytes bs) ∧
      (espTransportRead t n).2.stream = t.stream) := by
  unfold espTransportRead
  split
  · split
    · exact Or.inr ⟨fun bs h => by simp at h, rfl⟩
    · exact Or.inr ⟨fun bs h => by simp at h, rfl⟩
    · exact Or.inr ⟨fun bs h => by simp at h, rfl⟩
    · exact Or.inr ⟨fun bs h => by simp at h, rfl⟩
    · rename_i k rs _
      by_cases hm : min (k+1) (min n t.stream.length) = 0
      · rw [if_pos hm]
        exact Or.inr ⟨fun bs h => by simp at h, rfl⟩
      · rw [if_neg hm]
        refine Or.inl ⟨_, rfl, ?_, ?_, ?_⟩
        · intro h
          have hl := congrArg List.length h
          simp only [List.length_take, List.length_nil] at hl
          omega
        · simp only [List.length_take]; omega
        · exact (List.take_append_drop _ _).symm
  · exact Or.inr ⟨fun bs h => by simp at h, rfl⟩

end EspMqtt
