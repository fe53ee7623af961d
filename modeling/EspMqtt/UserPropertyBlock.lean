import EspMqtt.Mqtt5PublishRead
import EspMqtt.PublishLoop
import EspMqtt.Runtime

/-! `mqtt5_msg_get_user_property`: the list of user properties in the property block of an
acknowledgement. -/
namespace EspMqtt
open Wire (u16 u16_length)

/-- How a function over bytes ends: with a read outside of them, not within its fuel, or with
a result. -/
inductive Access (α : Type) where
  | outside
  | running
  | returned (a : α)
  deriving DecidableEq

namespace Access
variable {α β : Type}

/-- A read that may miss the bytes. -/
def ofRead : Option α → Access α
  | none => outside
  | some a => returned a

def bind : Access α → (α → Access β) → Access β
  | outside, _ => outside
  | running, _ => running
  | returned a, f => f a

@[simp] theorem ofRead_some (a : α) : ofRead (some a) = returned a := rfl

@[simp] theorem returned_bind (a : α) (f : α → Access β) : (returned a).bind f = f a := rfl

/-- No read missed the bytes. -/
def Inside (r : Access α) : Prop := r ≠ outside

theorem inside_returned (a : α) : (returned a).Inside := fun h => by cases h

theorem inside_running : (running : Access α).Inside := fun h => by cases h

theorem Inside.bind {r : Access α} {f : α → Access β} (h : r.Inside)
    (hf : ∀ a, r = returned a → (f a).Inside) : (r.bind f).Inside := by
  cases r with
  | outside => exact absurd rfl h
  | running => exact inside_running
  | returned a => exact hf a rfl

/-- What a run returns that ends with its last call. -/
theorem bind_returned_eq {r : Access α} {f : α → β} {b : β} :
    (r.bind fun a => returned (f a)) = returned b ↔ ∃ a, r = returned a ∧ f a = b := by
  constructor
  · intro h
    cases r with
    | outside => cases h
    | running => cases h
    | returned a => exact ⟨a, rfl, returned.inj h⟩
  · rintro ⟨a,rfl,rfl⟩
    rfl

end Access

/-! The loop. -/

/-- The next answer of `calloc`; those beyond the list are yes. -/
def callocs : ℕ → List Bool → Bool × List Bool
  | 0, allocs => (true, allocs)
  | n+1, allocs => if allocs.head?.getD true then callocs n allocs.tail else (false, allocs.tail)

/-- `mqtt5_msg_set_user_property`; `allocs` are the answers of `calloc`. -/
def mqtt5MsgSetUserProperty (userProperty : UserProperty) (key value : List UInt8) (allocs : List Bool) :
    EspErr × UserProperty × List Bool :=
  match callocs (if userProperty.isNone then 1 else 0) allocs with
  | (false, allocs) => (.fail, none, allocs)
  | (true, allocs) =>
    -- the item and its two strings; without them the list stays
    match callocs 3 allocs with
    | (true, allocs) => (.ok, some (userProperty.getD [] ++ [(key, value)]), allocs)
    | (false, allocs) => (.fail, some (userProperty.getD []), allocs)

namespace PropertySection

/-- A string with its length, every byte of it looked for in the memory; `some none` is the way
to `err`. -/
def readStringAt (p : PropertySection) (o : ℕ) : Option (Option (List UInt8 × ℕ)) :=
  if p.hasBytes o 2 then
    p.buffer[p.start+o]?.bind fun high => p.buffer[p.start+advance o 1]?.bind fun low =>
      let len := high.toNat*256+low.toNat
      let o := advance o 2
      if maxStringLen < len ∨ p.hasBytes o len = false then some none
      else if p.start+o+len ≤ p.buffer.length then
        some (some ((p.buffer.drop (p.start+o)).take len, advance o len))
      else none
  else some none

/-- The loop of `mqtt5_msg_get_user_property`. -/
def userPropertyLoop (p : PropertySection) : ℕ → ℕ → UserProperty → List Bool → Access UserProperty
  | 0, _, _, _ => .running
  | fuel+1, o, userProperty, allocs =>
    if o < p.length then
      (Access.ofRead p.buffer[p.start+o]?).bind fun propertyId =>
        let o := advance o 1
        match propertyId.toNat with
        | 0x1f =>
          -- a Reason String is only printed
          (Access.ofRead (p.readStringAt o)).bind fun
            -- `err` deletes the list there is and returns NULL
            | none => .returned none
            | some reason => userPropertyLoop p fuel reason.2 userProperty allocs
        | 0x26 =>
          (Access.ofRead (p.readStringAt o)).bind fun
            | none => .returned none
            | some key =>
              (Access.ofRead (p.readStringAt key.2)).bind fun
                | none => .returned none
                | some value =>
                  match mqtt5MsgSetUserProperty userProperty key.1 value.1 allocs with
                  | (.ok, userProperty, allocs) => userPropertyLoop p fuel value.2 userProperty allocs
                  | _ => .returned none
        -- unknown property id
        | _ => .returned none
    else .returned userProperty

end PropertySection

/-- `mqtt5_msg_get_user_property` on the bytes of a section. -/
def mqtt5MsgGetUserProperty (fuel : ℕ) (p : PropertySection) (allocs : List Bool) : Access UserProperty :=
  p.userPropertyLoop fuel 0 none allocs

/-! What a block of them looks like. -/

/-- The properties an acknowledgement may carry. -/
inductive AckProperty where
  | reasonString (text : List UInt8)
  | userProperty (key value : List UInt8)
  deriving DecidableEq

namespace AckProperty

def bytes : AckProperty → List UInt8
  | reasonString text => 0x1f :: (u16 text.length ++ text)
  | userProperty key value => 0x26 :: (u16 key.length ++ key ++ (u16 value.length ++ value))

/-- No string is longer than `MQTT5_MAX_PROPERTY_STRING_LEN`. -/
def Short : AckProperty → Prop
  | reasonString text => text.length ≤ 16*1024
  | userProperty key value => key.length ≤ 16*1024 ∧ value.length ≤ 16*1024

def pair : AckProperty → Option (List UInt8 × List UInt8)
  | reasonString _ => none
  | userProperty key value => some (key, value)

theorem bytes_pos (q : AckProperty) : 0 < q.bytes.length := by
  cases q <;> exact Nat.succ_pos _

end AckProperty

/-- A block is a sequence of these properties. -/
structure AckBlock (bs : List UInt8) (ps : List AckProperty) : Prop where
  short : ∀ q ∈ ps, q.Short
  bytes : bs = ps.flatMap AckProperty.bytes

/-- The list that holds these pairs behind those it has; there is none before the first pair. -/
def appendPairs (userProperty : UserProperty) (pairs : List (List UInt8 × List UInt8)) : UserProperty :=
  if pairs = [] then userProperty else some (userProperty.getD [] ++ pairs)

/-! One turn of the loop. -/

namespace PropertySection
variable {p : PropertySection} {o : ℕ}

theorem byteAt_read (hin : p.start+p.length ≤ p.buffer.length) (ho : o < p.length) :
    p.buffer[p.start+o]? = some (p.byteAt o) := by
  rw [byteAt, List.getD_eq_getElem?_getD, List.getElem?_eq_getElem (by omega), Option.getD_some]

/-- No read of a string leaves the section. -/
theorem readStringAt_eq (hin : p.start+p.length ≤ p.buffer.length) (o : ℕ) :
    p.readStringAt o = some (p.readString o) := by
  rw [readStringAt, readString]
  by_cases htwo : p.hasBytes o 2 = true
  · have hroom := hasBytes_iff.mp htwo
    have hnext : advance o 1 ≤ o+1 := Nat.mod_le _ _
    have hnumber : p.number 2 o 0 = (p.byteAt o).toNat*256+(p.byteAt (advance o 1)).toNat := by
      rw [number, number, number, Nat.zero_mul, Nat.zero_add]
    rw [if_pos htwo, if_pos htwo, byteAt_read hin (by omega), byteAt_read hin (by omega), Option.bind_some,
      Option.bind_some, hnumber]
    dsimp only
    split
    · rfl
    · rename_i hgood
      rw [not_or, Bool.not_eq_false, hasBytes_iff] at hgood
      have hinside := hgood.2
      rw [if_pos (by omega)]
  · rw [if_neg htwo, if_neg htwo]

/-- The property at an offset, and the offset behind it. -/
def ackPropertyAt (p : PropertySection) (o : ℕ) : Option (AckProperty × ℕ) :=
  match (p.byteAt o).toNat with
  | 0x1f => (p.readString (advance o 1)).map fun reason => (.reasonString reason.1, reason.2)
  | 0x26 =>
    (p.readString (advance o 1)).bind fun key => (p.readString key.2).map fun value =>
      (.userProperty key.1 value.1, value.2)
  | _ => none

end PropertySection

/-- What becomes of the list; `none` if an allocation fails. -/
def AckProperty.store (q : AckProperty) (userProperty : UserProperty) (allocs : List Bool) :
    Option (UserProperty × List Bool) :=
  match q.pair with
  | none => some (userProperty, allocs)
  | some pair =>
    match mqtt5MsgSetUserProperty userProperty pair.1 pair.2 allocs with
    | (.ok, userProperty, allocs) => some (userProperty, allocs)
    | _ => none

namespace PropertySection
variable {p : PropertySection} {o : ℕ}

theorem userPropertyLoop_turn (hin : p.start+p.length ≤ p.buffer.length) (fuel : ℕ)
    (userProperty : UserProperty) (allocs : List Bool) (ho : o < p.length) :
    p.userPropertyLoop (fuel+1) o userProperty allocs =
      match p.ackPropertyAt o with
      | none => .returned none
      | some (q, o) =>
        match q.store userProperty allocs with
        | none => .returned none
        | some (userProperty, allocs) => p.userPropertyLoop fuel o userProperty allocs := by
  rw [userPropertyLoop, if_pos ho, byteAt_read hin ho, ackPropertyAt, Access.ofRead_some, Access.returned_bind]
  dsimp only
  split
  · rw [readStringAt_eq hin, Access.ofRead_some, Access.returned_bind]
    cases p.readString (advance o 1) with
    | none => rfl
    | some reason => rfl
  · rw [readStringAt_eq hin, Access.ofRead_some, Access.returned_bind]
    cases p.readString (advance o 1) with
    | none => rfl
    | some key =>
      dsimp only [Option.bind_some]
      rw [readStringAt_eq hin, Access.ofRead_some, Access.returned_bind]
      cases p.readString key.2 with
      | none => rfl
      | some value =>
        dsimp only [Option.map_some, AckProperty.store, AckProperty.pair]
        split <;> simp_all
  · rfl

theorem userPropertyLoop_end (fuel : ℕ) (userProperty : UserProperty) (allocs : List Bool)
    (ho : p.length ≤ o) : p.userPropertyLoop (fuel+1) o userProperty allocs = .returned userProperty := by
  rw [userPropertyLoop, if_neg (Nat.not_lt.mpr ho)]

/-- Whatever the bytes are, none outside of them is read. -/
theorem userPropertyLoop_inside (hin : p.start+p.length ≤ p.buffer.length) (fuel : ℕ) :
    ∀ (o : ℕ) (userProperty : UserProperty) (allocs : List Bool),
      (p.userPropertyLoop fuel o userProperty allocs).Inside := by
  induction fuel with
  | zero => exact fun o userProperty allocs => Access.inside_running
  | succ fuel ih =>
    intro o userProperty allocs
    by_cases ho : o < p.length
    · rw [userPropertyLoop_turn hin fuel userProperty allocs ho]
      cases p.ackPropertyAt o with
      | none => exact Access.inside_returned none
      | some r =>
        dsimp only
        cases r.1.store userProperty allocs with
        | none => exact Access.inside_returned none
        | some next => exact ih r.2 next.1 next.2
    · rw [userPropertyLoop_end fuel userProperty allocs (Nat.not_lt.mp ho)]
      exact Access.inside_returned userProperty

/-! A turn and the first property of a block. -/

/-- What `readString` takes is a string behind its length. -/
theorem readString_sound (h : p.Fits) {t : List UInt8} {o' : ℕ}
    (hread : p.readString o = some (t, o')) :
    t.length ≤ 16*1024 ∧ p.bytes.drop o = u16 t.length ++ t ++ p.bytes.drop o' ∧
      o' = o+2+t.length ∧ o' ≤ p.length := by
  have hshort := h.short
  have hlen := h.bytes_length
  rw [readString] at hread
  split at hread
  · rename_i htwo
    rw [hasBytes_iff] at htwo
    obtain ⟨a,b,hab⟩ : ∃ a b, p.bytes.drop o = a :: b :: p.bytes.drop (o+2) := by
      refine ⟨p.bytes[o], p.bytes[o+1], ?_⟩
      rw [List.drop_eq_getElem_cons (by omega), List.drop_eq_getElem_cons (i := o+1) (by omega)]
    -- the length, first byte first
    have hnumber : p.number 2 o 0 = a.toNat*256+b.toNat := by
      rw [h.number 2 o 0 htwo, hab]
      simp
    rw [hnumber, advance_of_lt (by omega)] at hread
    dsimp only at hread
    split at hread
    · exact absurd hread (by simp)
    · rename_i hgood
      rw [not_or, Bool.not_eq_false, hasBytes_iff] at hgood
      obtain ⟨hmax,hroom⟩ := hgood
      rw [advance_of_lt (by omega), Option.some.injEq, Prod.mk.injEq] at hread
      obtain ⟨ht,ho'⟩ := hread
      -- the pointer into the buffer is a place in the section
      have hbody : (p.bytes.drop (o+2)).take (a.toNat*256+b.toNat) = t := by
        rw [← ht]
        unfold bytes
        rw [List.drop_take, List.take_take, List.drop_drop, Nat.min_eq_left (by omega)]
      have htlen : t.length = a.toNat*256+b.toNat := by
        rw [← hbody, List.length_take, List.length_drop, hlen]
        omega
      have hcount : u16 t.length = [a, b] := by
        rw [htlen, u16]
        have hb := b.toNat_lt
        have hhigh : (a.toNat*256+b.toNat)/256 = a.toNat := by omega
        have hlow : (a.toNat*256+b.toNat) % 256 = b.toNat := by omega
        rw [hhigh, hlow, UInt8.ofNat_toNat, UInt8.ofNat_toNat]
      refine ⟨by rw [htlen]; unfold maxStringLen at hmax; omega, ?_, by omega, by omega⟩
      rw [hab, hcount, ← ho']
      have hsplit := List.take_append_drop (a.toNat*256+b.toNat) (p.bytes.drop (o+2))
      rw [hbody, List.drop_drop] at hsplit
      exact congrArg (fun bs => a :: b :: bs) hsplit.symm
  · exact absurd hread (by simp)

/-- A property that is found stands there. -/
theorem ackPropertyAt_sound (h : p.Fits) {q : AckProperty} {o' : ℕ} (ho : o < p.length)
    (hat : p.ackPropertyAt o = some (q, o')) :
    q.Short ∧ p.bytes.drop o = q.bytes ++ p.bytes.drop o' ∧ o < o' ∧ o' ≤ p.length := by
  have hshort := h.short
  have hlen := h.bytes_length
  have hfirst : p.bytes.drop o = p.byteAt o :: p.bytes.drop (o+1) := by
    have hcons := List.drop_eq_getElem_cons (l := p.bytes) (i := o) (by omega)
    rw [byteAt_of_drop ho _ _ hcons]
    exact hcons
  rw [ackPropertyAt, advance_of_lt (by omega)] at hat
  split at hat
  · rename_i hid
    have hbyte : p.byteAt o = 0x1f := UInt8.toNat_inj.mp hid
    cases hreason : p.readString (o+1) with
    | none => rw [hreason] at hat; exact absurd hat (by simp)
    | some reason =>
      rw [hreason, Option.map_some, Option.some.injEq, Prod.mk.injEq] at hat
      obtain ⟨rfl,rfl⟩ := hat
      obtain ⟨hs,hd,heq,hle⟩ := readString_sound h hreason
      refine ⟨hs, ?_, by omega, hle⟩
      rw [hfirst, hbyte, hd, AckProperty.bytes, List.cons_append]
  · rename_i hid
    have hbyte : p.byteAt o = 0x26 := UInt8.toNat_inj.mp hid
    cases hkey : p.readString (o+1) with
    | none => rw [hkey] at hat; exact absurd hat (by simp)
    | some key =>
      obtain ⟨hs,hd,heq,hle⟩ := readString_sound h hkey
      rw [hkey, Option.bind_some] at hat
      cases hvalue : p.readString key.2 with
      | none => rw [hvalue] at hat; exact absurd hat (by simp)
      | some value =>
        obtain ⟨hs',hd',heq',hle'⟩ := readString_sound h hvalue
        rw [hvalue, Option.map_some, Option.some.injEq, Prod.mk.injEq] at hat
        obtain ⟨rfl,rfl⟩ := hat
        refine ⟨⟨hs,hs'⟩, ?_, by omega, hle'⟩
        rw [hfirst, hbyte, hd, hd', AckProperty.bytes, List.cons_append, ← List.append_assoc]
  · exact absurd hat (by simp)

/-- A property that stands there is found. -/
theorem ackPropertyAt_complete {q : AckProperty} {rest : List UInt8} (hq : q.Short)
    (h : p.At o (q.bytes ++ rest)) : p.ackPropertyAt o = some (q, o+q.bytes.length) := by
  have hl := h.length
  have hs := h.fits.short
  rw [List.length_append] at hl
  have hpos := q.bytes_pos
  have hadv : advance o 1 = o+1 := advance_of_lt (by omega)
  have hid {b : UInt8} {bs : List UInt8} (hb : q.bytes = b :: bs) : p.byteAt o = b := by
    have hbytes := h.bytes
    rw [hb] at hbytes
    exact byteAt_of_drop (by omega) (bs ++ rest) b hbytes
  rw [ackPropertyAt, hadv]
  cases q with
  | reasonString text =>
    have hat : p.At (o+1) (u16 text.length ++ text ++ rest) := At.skip (w := [0x1f]) h
    rw [hid rfl, hat.readString hq]
    simp only [AckProperty.bytes, List.length_cons]
    exact congrArg (fun n => some (AckProperty.reasonString text, n)) (by omega)
  | userProperty key value =>
    have hat : p.At (o+1) (u16 key.length ++ key ++ (u16 value.length ++ value) ++ rest) :=
      At.skip (w := [0x26]) h
    have hkey := hat
    rw [List.append_assoc] at hkey
    rw [hid rfl, hkey.readString hq.1, Option.bind_some]
    rw [hkey.skip.readString hq.2, Option.map_some]
    simp only [AckProperty.bytes, List.length_cons, List.length_append]
    exact congrArg (fun n => some (AckProperty.userProperty key value, n)) (by omega)

end PropertySection

/-! Allocations. -/

theorem callocs_add (m n : ℕ) (allocs : List Bool) :
    callocs (m+n) allocs = if (callocs m allocs).1 then callocs n (callocs m allocs).2 else callocs m allocs := by
  induction m generalizing allocs with
  | zero => rw [Nat.zero_add]; rfl
  | succ m ih =>
    rw [Nat.add_right_comm, callocs, callocs]
    split
    · exact ih allocs.tail
    · rfl

/-- So many answers are taken if all of them are yes. -/
theorem callocs_take (n : ℕ) (allocs : List Bool) :
    (callocs n allocs).1 = (allocs.take n).all id ∧
      ((callocs n allocs).1 = true → (callocs n allocs).2 = allocs.drop n) := by
  induction n generalizing allocs with
  | zero => exact ⟨rfl, fun _ => rfl⟩
  | succ n ih =>
    cases allocs with
    | nil =>
      rw [callocs]
      exact ⟨(ih []).1.trans (by simp), fun h => ((ih []).2 h).trans (by simp)⟩
    | cons a as =>
      rw [callocs]
      cases a with
      | false => exact ⟨rfl, fun h => Bool.noConfusion h⟩
      | true => exact ih as

/-- Allocations that succeed stay so. -/
theorem callocs_succeed (n : ℕ) {allocs : List Bool} (h : ∀ a ∈ allocs, a = true) :
    ∃ allocs', callocs n allocs = (true, allocs') ∧ ∀ a ∈ allocs', a = true := by
  obtain ⟨hall,hdrop⟩ := callocs_take n allocs
  have hok : (callocs n allocs).1 = true := by
    rw [hall, List.all_eq_true]
    exact fun a ha => h a (List.mem_of_mem_take ha)
  exact ⟨allocs.drop n, Prod.ext hok (hdrop hok), fun a ha => h a (List.mem_of_mem_drop ha)⟩

/-- All allocations of a call, one after the other. -/
theorem mqtt5MsgSetUserProperty_eq (userProperty : UserProperty) (key value : List UInt8) (allocs : List Bool) :
    let r := callocs (if userProperty.isNone then 4 else 3) allocs
    (r.1 = true → mqtt5MsgSetUserProperty userProperty key value allocs =
      (.ok, some (userProperty.getD [] ++ [(key, value)]), r.2)) ∧
    (r.1 = false → ∃ list, mqtt5MsgSetUserProperty userProperty key value allocs = (.fail, list, r.2)) := by
  have hcount : (if userProperty.isNone then 4 else 3) = (if userProperty.isNone then 1 else 0)+3 := by
    cases userProperty <;> rfl
  rw [hcount, callocs_add, mqtt5MsgSetUserProperty]
  generalize callocs (if userProperty.isNone then 1 else 0) allocs = made
  obtain ⟨ok,allocs⟩ := made
  cases ok with
  | false => exact ⟨fun h => Bool.noConfusion h, fun _ => ⟨none, rfl⟩⟩
  | true =>
    dsimp only
    rw [if_pos rfl]
    generalize callocs 3 allocs = item
    obtain ⟨ok,allocs⟩ := item
    cases ok with
    | false => exact ⟨fun h => Bool.noConfusion h, fun _ => ⟨_, rfl⟩⟩
    | true => exact ⟨fun _ => rfl, fun h => Bool.noConfusion h⟩

theorem AckProperty.store_succeeds (q : AckProperty) (userProperty : UserProperty) {allocs : List Bool}
    (h : ∀ a ∈ allocs, a = true) :
    ∃ allocs', q.store userProperty allocs = some (appendPairs userProperty q.pair.toList, allocs') ∧
      ∀ a ∈ allocs', a = true := by
  cases q with
  | reasonString text => exact ⟨allocs, rfl, h⟩
  | userProperty key value =>
    obtain ⟨rest,hrest,htrue⟩ := callocs_succeed (if userProperty.isNone then 4 else 3) h
    have hset := (mqtt5MsgSetUserProperty_eq userProperty key value allocs).1 (by rw [hrest])
    rw [hrest] at hset
    refine ⟨rest, ?_, htrue⟩
    rw [store, pair]
    dsimp only
    rw [hset]
    rfl

/-! The whole block. -/

theorem appendPairs_append (userProperty : UserProperty) (as bs : List (List UInt8 × List UInt8)) :
    appendPairs (appendPairs userProperty as) bs = appendPairs userProperty (as ++ bs) := by
  unfold appendPairs
  by_cases ha : as = []
  · rw [if_pos ha, ha, List.nil_append]
  · by_cases hb : bs = []
    · rw [if_pos hb, hb, List.append_nil]
    · rw [if_neg hb, if_neg ha, if_neg (by simp [ha]), Option.getD_some, List.append_assoc]

namespace PropertySection
variable {p : PropertySection}

/-- Every turn takes at least a byte, so the loop ends. -/
theorem userPropertyLoop_returns (h : p.Fits) (hin : p.start+p.length ≤ p.buffer.length) (fuel : ℕ) :
    ∀ (o : ℕ) (userProperty : UserProperty) (allocs : List Bool), p.length-o < fuel →
      ∃ r, p.userPropertyLoop fuel o userProperty allocs = .returned r := by
  induction fuel with
  | zero => exact fun o _ _ hfuel => absurd hfuel (Nat.not_lt_zero _)
  | succ fuel ih =>
    intro o userProperty allocs hfuel
    by_cases ho : o < p.length
    · rw [userPropertyLoop_turn hin fuel userProperty allocs ho]
      cases hat : p.ackPropertyAt o with
      | none => exact ⟨none, rfl⟩
      | some r =>
        -- the fuel left is still more than the bytes left
        obtain ⟨-,-,hforward,-⟩ := ackPropertyAt_sound h ho hat
        dsimp only
        cases r.1.store userProperty allocs with
        | none => exact ⟨none, rfl⟩
        | some next => exact ih r.2 next.1 next.2 (by omega)
    · exact ⟨userProperty, userPropertyLoop_end fuel userProperty allocs (Nat.not_lt.mp ho)⟩

/-- With memory the loop hands out the pairs of a block, and of anything else none. -/
theorem userPropertyLoop_block (h : p.Fits) (hin : p.start+p.length ≤ p.buffer.length) (fuel : ℕ) :
    ∀ (o : ℕ) (userProperty : UserProperty) (allocs : List Bool), o ≤ p.length → p.length-o < fuel →
      (∀ a ∈ allocs, a = true) →
      (∀ ps, AckBlock (p.bytes.drop o) ps →
        p.userPropertyLoop fuel o userProperty allocs =
          .returned (appendPairs userProperty (ps.filterMap AckProperty.pair))) ∧
      ((¬ ∃ ps, AckBlock (p.bytes.drop o) ps) →
        p.userPropertyLoop fuel o userProperty allocs = .returned none) := by
  induction fuel with
  | zero => exact fun o _ _ _ hfuel => absurd hfuel (Nat.not_lt_zero _)
  | succ fuel ih =>
    intro o userProperty allocs ho hfuel hmemory
    have hlen := h.bytes_length
    by_cases hlt : o < p.length
    · rw [userPropertyLoop_turn hin fuel userProperty allocs hlt]
      have hne : p.bytes.drop o ≠ [] := by
        rw [Ne, List.drop_eq_nil_iff]
        omega
      -- a block that is not empty begins with a property
      have hfirst {ps : List AckProperty} (hps : AckBlock (p.bytes.drop o) ps) :
          ∃ q qs, ps = q :: qs ∧ q.Short ∧ p.At o (q.bytes ++ qs.flatMap AckProperty.bytes) := by
        cases ps with
        | nil => exact absurd hps.bytes hne
        | cons q qs => exact ⟨q, qs, rfl, hps.short q List.mem_cons_self, h, ho, hps.bytes⟩
      cases hat : p.ackPropertyAt o with
      | none =>
        refine ⟨fun ps hps => ?_, fun _ => rfl⟩
        obtain ⟨q,qs,rfl,hq,hstands⟩ := hfirst hps
        exact absurd (ackPropertyAt_complete hq hstands) (by rw [hat]; simp)
      | some r =>
        obtain ⟨q,o'⟩ := r
        obtain ⟨hq,hdrop,hforward,hle⟩ := ackPropertyAt_sound h hlt hat
        obtain ⟨allocs',hstore,hmemory'⟩ := q.store_succeeds userProperty hmemory
        obtain ⟨hblock,hother⟩ := ih o' (appendPairs userProperty q.pair.toList) allocs' hle (by omega) hmemory'
        dsimp only
        rw [hstore]
        dsimp only
        constructor
        · intro ps hps
          obtain ⟨q',qs,rfl,hq',hstands⟩ := hfirst hps
          -- the block begins with the property that was found
          have hsame := ackPropertyAt_complete hq' hstands
          rw [hat, Option.some.injEq, Prod.mk.injEq] at hsame
          obtain ⟨rfl,hend⟩ := hsame
          have hrest : AckBlock (p.bytes.drop o') qs := by
            refine ⟨fun x hx => hps.short x (List.mem_cons_of_mem _ hx), ?_⟩
            exact List.append_cancel_left (hdrop.symm.trans hps.bytes)
          rw [hblock qs hrest, appendPairs_append]
          cases q <;> rfl
        · intro hnone
          apply hother
          rintro ⟨qs,hqs⟩
          refine hnone ⟨q :: qs, ?_, ?_⟩
          · rintro x hx
            rcases List.mem_cons.mp hx with rfl | hx
            · exact hq
            · exact hqs.short x hx
          · rw [hdrop, hqs.bytes, List.flatMap_cons]
    · have hnil : p.bytes.drop o = [] := List.drop_eq_nil_iff.mpr (by omega)
      rw [userPropertyLoop_end fuel userProperty allocs (by omega), hnil]
      constructor
      · intro ps hps
        cases ps with
        | nil => rfl
        | cons q qs =>
          have hbytes := congrArg List.length hps.bytes
          have hpos := q.bytes_pos
          rw [List.flatMap_cons, List.length_append, List.length_nil] at hbytes
          omega
      · exact fun hnone => absurd ⟨[], by simp, rfl⟩ hnone

end PropertySection

/-! The parsers of the CONNACK and of the PUBLISH store a pair in the same way. -/

theorem ConnackInfo.allocAll_eq (n : ℕ) (t : ConnackInfo) :
    ConnackInfo.allocAll n t = ((callocs n t.allocs).1, {t with allocs := (callocs n t.allocs).2}) := by
  induction n generalizing t with
  | zero => rfl
  | succ n ih =>
    rw [ConnackInfo.allocAll, ConnackInfo.alloc, callocs]
    cases hhead : t.allocs.head?.getD true with
    | true =>
      dsimp only
      rw [ih, if_pos rfl]
    | false => rfl

/-- What the parser of the CONNACK does with a pair. -/
theorem ConnackInfo.setUserProperty_eq (t : ConnackInfo) (key value : List UInt8) :
    t.setUserProperty key value =
      match mqtt5MsgSetUserProperty t.userProperty key value t.allocs with
      | (.ok, userProperty, allocs) => (true, {t with userProperty := userProperty, allocs := allocs})
      | (_, _, allocs) => (false, {t with userProperty := none, allocs := allocs}) := by
  obtain ⟨hok,hfail⟩ := mqtt5MsgSetUserProperty_eq t.userProperty key value t.allocs
  rw [ConnackInfo.setUserProperty, ConnackInfo.allocAll_eq]
  generalize callocs (if t.userProperty.isNone then 4 else 3) t.allocs = r at hok hfail ⊢
  obtain ⟨ok,allocs⟩ := r
  cases ok with
  | true => rw [hok rfl]
  | false =>
    obtain ⟨list,hcall⟩ := hfail rfl
    rw [hcall]

/-- What the parser of the PUBLISH does with a pair; without memory it returns `NULL`. -/
theorem PublishResp.setUserProperty_eq (t : PublishResp) (key value : List UInt8) :
    (∀ userProperty allocs, mqtt5MsgSetUserProperty t.userProperty key value t.allocs = (.ok, userProperty, allocs) →
      t.setUserProperty key value = (true, {t with userProperty := userProperty, allocs := allocs})) ∧
    ((mqtt5MsgSetUserProperty t.userProperty key value t.allocs).1 ≠ .ok →
      (t.setUserProperty key value).1 = false) := by
  obtain ⟨hok,hfail⟩ := mqtt5MsgSetUserProperty_eq t.userProperty key value t.allocs
  obtain ⟨hall,hdrop⟩ := callocs_take (if t.userProperty.isNone then 4 else 3) t.allocs
  rw [PublishResp.setUserProperty, PublishResp.hasMemory]
  cases hmemory : (t.allocs.take (if t.userProperty.isNone then 4 else 3)).all id with
  | true =>
    rw [hmemory] at hall
    rw [hok hall, if_pos rfl]
    constructor
    · intro userProperty allocs h
      cases h
      rw [hdrop hall]
    · exact fun h => absurd rfl h
  | false =>
    rw [hmemory] at hall
    obtain ⟨list,hcall⟩ := hfail hall
    rw [hcall, if_neg Bool.false_ne_true]
    constructor
    · intro userProperty allocs h
      cases h
    · exact fun _ => rfl

end EspMqtt
