import Mathlib.Data.List.Basic
import Mathlib.Data.Nat.Notation
import Mathlib.Algebra.Order.Ring.Int

/-! Byte encodings by concatenation. A field of fixed width, or with its length before it, can be
peeled off the front, so that an encoding made of such fields is injective. -/
namespace Encoding

/-- A number in the given count of bytes, the highest first. -/
def bigEndian : ℕ → ℕ → List ℕ
  | 0, _ => []
  | width + 1, n => bigEndian width (n / 256) ++ [n % 256]

@[simp] theorem length_bigEndian (width n : ℕ) : (bigEndian width n).length = width := by
  induction width generalizing n with
  | zero => rfl
  | succ width ih => simp [bigEndian, ih]

/-- Numbers that fit their bytes are told apart by them. -/
theorem bigEndian_inj {width m n : ℕ} (hm : m < 256 ^ width) (hn : n < 256 ^ width)
    (h : bigEndian width m = bigEndian width n) : m = n := by
  induction width generalizing m n with
  | zero =>
    simp only [pow_zero] at hm hn
    omega
  | succ width ih =>
    rw [pow_succ] at hm hn
    obtain ⟨hhigh, hlow⟩ := List.append_inj h (by simp)
    have hdiv : m / 256 = n / 256 :=
      ih (Nat.div_lt_of_lt_mul (by omega)) (Nat.div_lt_of_lt_mul (by omega)) hhigh
    have hmod : m % 256 = n % 256 := by simpa using hlow
    omega

variable {α : Type*} {a b rest rest' : List α}

/-- Two fields of one width before the rest. -/
theorem peel (hwidth : a.length = b.length) (h : a ++ rest = b ++ rest') :
    a = b ∧ rest = rest' :=
  List.append_inj h hwidth

variable {m n : ℕ}

/-- A number of fixed width before the rest. -/
theorem peel_bigEndian {rest rest' : List ℕ} {width : ℕ} (hm : m < 256 ^ width)
    (hn : n < 256 ^ width) (h : bigEndian width m ++ rest = bigEndian width n ++ rest') :
    m = n ∧ rest = rest' := by
  obtain ⟨hfield, hrest⟩ := peel (by simp) h
  exact ⟨bigEndian_inj hm hn hfield, hrest⟩

/-- A list with its length before it. -/
def counted (width : ℕ) (bytes : List ℕ) : List ℕ := bigEndian width bytes.length ++ bytes

theorem peel_counted {bytes bytes' rest rest' : List ℕ} {width : ℕ}
    (hbytes : bytes.length < 256 ^ width) (hbytes' : bytes'.length < 256 ^ width)
    (h : counted width bytes ++ rest = counted width bytes' ++ rest') :
    bytes = bytes' ∧ rest = rest' := by
  unfold counted at h
  rw [List.append_assoc, List.append_assoc] at h
  obtain ⟨hlength, h⟩ := peel_bigEndian hbytes hbytes' h
  exact peel hlength h

/-- A field before a separator that it does not contain. -/
theorem peel_separated {sep : α} (ha : sep ∉ a) (hb : sep ∉ b)
    (h : a ++ sep :: rest = b ++ sep :: rest') : a = b ∧ rest = rest' := by
  induction a generalizing b with
  | nil =>
    cases b with
    | nil => simpa using h
    | cons y b =>
      have hhead : sep = y := (List.cons.inj h).1
      exact (hb (hhead ▸ List.mem_cons_self ..)).elim
  | cons x a ih =>
    cases b with
    | nil =>
      have hhead : x = sep := (List.cons.inj h).1
      exact (ha (hhead ▸ List.mem_cons_self ..)).elim
    | cons y b =>
      obtain ⟨rfl, htail⟩ := List.cons.inj h
      obtain ⟨rfl, hrest⟩ := ih (fun hmem => ha (List.mem_cons_of_mem _ hmem))
        (fun hmem => hb (List.mem_cons_of_mem _ hmem)) htail
      exact ⟨rfl, hrest⟩

end Encoding
