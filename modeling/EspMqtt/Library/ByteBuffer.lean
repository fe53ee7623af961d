import Mathlib.Data.List.Basic
import Mathlib.Data.List.TakeDrop
import Mathlib.Tactic

/-! Fixed storage as a list of bytes, and the one operation C code performs on
it: copying a run of bytes to a position (`memcpy`). -/
namespace ByteBuffer

/-- Overwrite `buf` at `pos` with `bs`; everything else keeps its value. -/
def splice {α : Type*} (buf : List α) (pos : ℕ) (bs : List α) : List α :=
  buf.take pos ++ bs ++ buf.drop (pos+bs.length)

theorem splice_length {α : Type*} (buf bs : List α) (pos : ℕ)
    (h : pos+bs.length ≤ buf.length) : (splice buf pos bs).length = buf.length := by
  simp only [splice, List.length_append, List.length_take, List.length_drop]
  omega

@[simp] theorem splice_nil {α : Type*} (buf : List α) (pos : ℕ) : splice buf pos [] = buf := by
  simp only [splice, List.append_nil, List.length_nil, Nat.add_zero, List.take_append_drop]

/-- Copying right behind the first `pos` bytes extends that prefix. -/
theorem take_splice {α : Type*} (buf bs : List α) (pos : ℕ) (h : pos ≤ buf.length) :
    (splice buf pos bs).take (pos+bs.length) = buf.take pos ++ bs := by
  have hl : (buf.take pos ++ bs).length = pos+bs.length := by
    simp only [List.length_append, List.length_take]
    omega
  unfold splice
  rw [← hl, List.take_left]

theorem le_splice_length {α : Type*} (buf bs : List α) (pos : ℕ) (h : pos ≤ buf.length) :
    pos+bs.length ≤ (splice buf pos bs).length := by
  simp only [splice, List.length_append, List.length_take, List.length_drop]
  omega

/-- Copying over the middle of three runs. -/
theorem splice_middle {α : Type*} (front old new rest : List α) (h : new.length = old.length) :
    splice (front ++ (old ++ rest)) front.length new = front ++ (new ++ rest) := by
  unfold splice
  rw [List.take_left, h, ← List.length_append, ← List.append_assoc front old rest, List.drop_left,
    List.append_assoc]

/-- Equal prefixes answer every read below their length alike. -/
theorem getD_of_take_eq {α : Type*} (buf p : List α) (r i : ℕ) (d : α) (hi : i < r)
    (h : buf.take r = p.take r) : buf.getD i d = p.getD i d := by
  have hh := congrArg (fun l : List α => l.getD i d) h
  simpa only [List.getD_eq_getElem?_getD, List.getElem?_take, if_pos hi] using hh

/-- The prefix one byte longer is the prefix and the next byte. -/
theorem take_succ_getD {α : Type*} (p : List α) (r : ℕ) (d : α) (h : r < p.length) :
    p.take (r+1) = p.take r ++ [p.getD r d] := by
  rw [List.take_add_one, List.getElem?_eq_getElem h, Option.toList_some,
    List.getD_eq_getElem?_getD, List.getElem?_eq_getElem h, Option.getD_some]

theorem take_drop_append {α : Type*} (p : List α) (r k : ℕ) :
    p.take r ++ (p.drop r).take k = p.take (r+k) := by
  rw [List.take_add]

end ByteBuffer
