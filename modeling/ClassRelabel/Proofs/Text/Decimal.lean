/-
Decimal numbers are read back.
-/
import ClassRelabel.Text.Decimal
import ClassRelabel.Proofs.Text.Lines

namespace ClassRelabel
namespace Text

theorem digit?_of_isDigit {c : Char} (hc : c.isDigit = true) : digit? c = some (c.toNat - 48) := by
  simp only [Char.isDigit, Bool.and_eq_true, decide_eq_true_eq] at hc
  have hrange : '0' ≤ c ∧ c ≤ '9' := hc
  rw [digit?, if_pos hrange]

theorem digit?_of_not_isDigit {c : Char} (hc : c.isDigit = false) : digit? c = none := by
  rw [digit?, if_neg]
  rintro ⟨hlow, hhigh⟩
  simp only [Char.isDigit, Bool.and_eq_false_iff, decide_eq_false_iff_not] at hc
  exact hc.elim (fun h => h hlow) fun h => h hhigh

theorem isBlank_of_isDigit {c : Char} (hc : c.isDigit = true) : isBlank c = false := by
  simp only [Char.isDigit, Bool.and_eq_true, decide_eq_true_eq] at hc
  have hlow : 48 ≤ c.toNat := UInt32.le_iff_toNat_le.mp hc.1
  have hhigh : c.toNat ≤ 57 := UInt32.le_iff_toNat_le.mp hc.2
  simp only [isBlank, Bool.or_eq_false_iff, Bool.and_eq_false_iff, decide_eq_false_iff_not,
    beq_eq_false_iff_ne]
  omega

theorem foldlM_digit? {cs : List Char} (hcs : ∀ c ∈ cs, c.isDigit = true) (n : Nat) :
    cs.foldlM (fun n c => (digit? c).map (n * 10 + ·)) n = some (Nat.ofDigitChars 10 cs n) := by
  induction cs generalizing n with
  | nil => rfl
  | cons c cs ih =>
    obtain ⟨hc, hcs⟩ := List.forall_mem_cons.mp hcs
    rw [List.foldlM_cons, digit?_of_isDigit hc, Nat.ofDigitChars_cons, Nat.mul_comm 10 n]
    exact ih hcs _

theorem isDigit_of_mem_toDigits {n : Nat} : ∀ c ∈ Nat.toDigits 10 n, c.isDigit = true :=
  fun _ hc => Nat.isDigit_of_mem_toDigits (by decide) (by decide) hc

theorem isWord_repr (n : Nat) : IsWord n.repr.toList := by
  rw [Nat.toList_repr]
  exact ⟨Nat.toDigits_ne_nil, fun c hc => isBlank_of_isDigit (isDigit_of_mem_toDigits c hc)⟩

theorem head?_repr_ne {c : Char} (hc : c.isDigit = false) (n : Nat) :
    n.repr.toList.head? ≠ some c := by
  intro hhead
  rw [Nat.toList_repr] at hhead
  have hdigit := isDigit_of_mem_toDigits c (List.mem_of_mem_head? hhead)
  simp [hc] at hdigit

/-- A number up to the limit is read from its digits. -/
theorem decimal?_repr {limit n : Nat} (hn : n ≤ limit) : decimal? limit n.repr = some n := by
  have hdigits : digits? n.repr.toList = some n := by
    rw [Nat.toList_repr, digits?, foldlM_digit? isDigit_of_mem_toDigits,
      Nat.ofDigitChars_toDigits (by decide) (by decide)]
  have hplus : n.repr.toList.head? ≠ some '+' := head?_repr_ne (by decide) n
  have hne := (isWord_repr n).1
  rw [decimal?]
  generalize n.repr.toList = cs at hdigits hplus hne
  split
  · simp at hplus
  · simp [hne, hdigits, hn]

end Text
end ClassRelabel
