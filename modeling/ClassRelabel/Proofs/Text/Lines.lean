/-
Words and lines that were put together are cut apart again.

A word has characters and no blanks among them.  Words with a space between them are found again
(`words_unwords`), and a line loses only the blanks behind its last word (`trimEnd_append_cons`).
The front of a text up to the end of a line has the lines up to there (`lines_firstLines`).
-/
import ClassRelabel.Text.Split
import Mathlib.Data.List.TakeWhile

namespace ClassRelabel
namespace Text

variable {cs ws front blanks rest : List Char} {c : Char}

def AllBlank (cs : List Char) : Prop := ∀ c ∈ cs, isBlank c = true

/-- A text that is cut nowhere. -/
def IsWord (cs : List Char) : Prop := cs ≠ [] ∧ ∀ c ∈ cs, isBlank c = false

instance (cs : List Char) : Decidable (AllBlank cs) :=
  decidable_of_iff (cs.all isBlank = true) <| by simp [AllBlank]

instance (cs : List Char) : Decidable (IsWord cs) :=
  decidable_of_iff ((!cs.isEmpty && cs.all fun c => !isBlank c) = true) <| by simp [IsWord]

/-- Words with a space between them. -/
def unwords (ws : List (List Char)) : List Char := [' '].intercalate ws

/-! ## Words -/

theorem wordsFrom_append (hcs : ∀ c ∈ cs, isBlank c = false) (before rest : List Char) :
    wordsFrom before (cs ++ rest) = wordsFrom (cs.reverse ++ before) rest := by
  induction cs generalizing before with
  | nil => rfl
  | cons c cs ih =>
    obtain ⟨hc, hcs⟩ := List.forall_mem_cons.mp hcs
    have hrest := ih hcs (c :: before)
    rw [List.cons_append, wordsFrom, if_neg (by simp [hc]), hrest]
    simp

theorem words_blank (hc : isBlank c = true) : words (c :: rest) = words rest := by
  rw [words, wordsFrom, if_pos hc, if_pos List.isEmpty_nil]
  rfl

theorem words_append_blank (hcs : IsWord cs) (hc : isBlank c = true) :
    words (cs ++ c :: rest) = cs :: words rest := by
  have hne : cs.reverse.isEmpty = false := by simpa using hcs.1
  rw [words, wordsFrom_append hcs.2, List.append_nil, wordsFrom, if_pos hc, if_neg (by simp [hne]),
    List.reverse_reverse]
  rfl

theorem words_of_isWord (hcs : IsWord cs) : words cs = [cs] := by
  have hne : cs.reverse.isEmpty = false := by simpa using hcs.1
  have hrun := wordsFrom_append hcs.2 [] []
  rw [List.append_nil, List.append_nil] at hrun
  rw [words, hrun, wordsFrom, if_neg (by simp [hne]), List.reverse_reverse]

theorem unwords_cons_cons (w v : List Char) (ws : List (List Char)) :
    unwords (w :: v :: ws) = w ++ ' ' :: unwords (v :: ws) := by
  simp [unwords, List.intercalate]

theorem unwords_singleton (w : List Char) : unwords [w] = w := by
  simp [unwords, List.intercalate]

/-- Words with a space between them are cut apart again. -/
theorem words_unwords {ws : List (List Char)} (hws : ∀ w ∈ ws, IsWord w) :
    words (unwords ws) = ws := by
  induction ws with
  | nil => rfl
  | cons w ws ih =>
    obtain ⟨hw, hws⟩ := List.forall_mem_cons.mp hws
    cases ws with
    | nil => rw [unwords_singleton, words_of_isWord hw]
    | cons v ws => rw [unwords_cons_cons, words_append_blank hw (by decide), ih hws]

theorem mem_unwords {ws : List (List Char)} (hc : c ∈ unwords ws) : c = ' ' ∨ ∃ w ∈ ws, c ∈ w := by
  induction ws with
  | nil => simp [unwords] at hc
  | cons w ws ih =>
    cases ws with
    | nil =>
      rw [unwords_singleton] at hc
      exact .inr ⟨w, List.mem_cons_self, hc⟩
    | cons v ws =>
      rw [unwords_cons_cons, List.mem_append, List.mem_cons] at hc
      rcases hc with hc | rfl | hc
      · exact .inr ⟨w, List.mem_cons_self, hc⟩
      · exact .inl rfl
      · refine (ih hc).imp_right fun ⟨u, hu, hcu⟩ => ?_
        exact ⟨u, List.mem_cons_of_mem w hu, hcu⟩

/-- Words begin with the first one. -/
theorem unwords_cons (w : List Char) (ws : List (List Char)) :
    ∃ rest, unwords (w :: ws) = w ++ rest := by
  cases ws with
  | nil => exact ⟨[], by rw [unwords_singleton, List.append_nil]⟩
  | cons v ws => exact ⟨_, unwords_cons_cons w v ws⟩

/-- Words end with the last one. -/
theorem unwords_concat (ws : List (List Char)) (w : List Char) :
    ∃ front, unwords (ws ++ [w]) = front ++ w := by
  induction ws with
  | nil => exact ⟨[], unwords_singleton w⟩
  | cons v ws ih =>
    obtain ⟨front, hfront⟩ := ih
    obtain ⟨u, us, hus⟩ := List.exists_cons_of_ne_nil (show ws ++ [w] ≠ [] by simp)
    refine ⟨v ++ ' ' :: front, ?_⟩
    rw [List.cons_append, hus, unwords_cons_cons, ← hus, hfront, List.append_assoc,
      List.cons_append]

theorem words_indented (hblanks : AllBlank blanks) : words (blanks ++ cs) = words cs := by
  induction blanks with
  | nil => rfl
  | cons c blanks ih =>
    obtain ⟨hc, hblanks⟩ := List.forall_mem_cons.mp hblanks
    rw [List.cons_append, words_blank hc, ih hblanks]

theorem AllBlank.not_mem (h : AllBlank cs) (hc : isBlank c = false) : c ∉ cs :=
  fun hmem => by simp [h c hmem] at hc

/-! ## Blanks at the ends -/

theorem trimStart_append (hblanks : AllBlank blanks) (hc : isBlank c = false) :
    trimStart (blanks ++ c :: rest) = c :: rest := by
  rw [trimStart, List.dropWhile_append_of_pos hblanks, List.dropWhile_cons_of_neg (by simp [hc])]

theorem trimEnd_of_allBlank (hblanks : AllBlank blanks) : trimEnd blanks = [] := by
  have hdrop : blanks.reverse.dropWhile isBlank = [] :=
    List.dropWhile_eq_nil_iff.mpr fun c hc => hblanks c (List.mem_reverse.mp hc)
  rw [trimEnd, hdrop]
  rfl

/-- What stands in front of a character other than a blank is not trimmed. -/
theorem trimEnd_append_cons (hc : isBlank c = false) :
    trimEnd (front ++ c :: rest) = front ++ c :: trimEnd rest := by
  have hsplit : (front ++ c :: rest).reverse = rest.reverse ++ c :: front.reverse := by simp
  have hdrop : (rest.reverse ++ c :: front.reverse).dropWhile isBlank =
      rest.reverse.dropWhile isBlank ++ c :: front.reverse := by
    rw [List.dropWhile_append]
    split
    · rename_i hempty
      rw [List.isEmpty_iff.mp hempty, List.dropWhile_cons_of_neg (by simp [hc])]
      rfl
    · rfl
  rw [trimEnd, hsplit, hdrop, trimEnd]
  simp

theorem trimEnd_concat_blank (hc : isBlank c = true) : trimEnd (cs ++ [c]) = trimEnd cs := by
  rw [trimEnd, List.reverse_append, List.reverse_singleton, List.singleton_append,
    List.dropWhile_cons_of_pos hc, trimEnd]

/-! ## Lines -/

theorem trimEnd_endLine (before : List Char) :
    trimEnd (endLine before) = trimEnd before.reverse := by
  unfold endLine
  split
  · rw [List.reverse_cons, trimEnd_concat_blank (by decide)]
  · rfl

theorem linesFrom_append (hcs : '\n' ∉ cs) (before rest : List Char) :
    linesFrom before (cs ++ rest) = linesFrom (cs.reverse ++ before) rest := by
  induction cs generalizing before with
  | nil => rfl
  | cons c cs ih =>
    obtain ⟨hc, hcs⟩ : '\n' ≠ c ∧ '\n' ∉ cs := by simpa using hcs
    have hrest := ih hcs (c :: before)
    rw [List.cons_append, linesFrom, hrest]
    · simp
    · exact Ne.symm hc

/-- The lines of a text without the blanks behind them. -/
def trimmedLines (cs : List Char) : List (List Char) := (lines cs).map trimEnd

section

variable {α : Type} {f : List Char → α}

theorem map_lines_append (hf : ∀ before, f (endLine before) = f before.reverse) (hcs : '\n' ∉ cs) :
    (lines (cs ++ '\n' :: rest)).map f = f cs :: (lines rest).map f := by
  rw [lines, linesFrom_append hcs, List.append_nil, linesFrom, List.map_cons, hf,
    List.reverse_reverse]
  rfl

theorem map_lines_last (hcs : '\n' ∉ cs) (hne : cs ≠ []) : (lines cs).map f = [f cs] := by
  have hrun := linesFrom_append hcs [] []
  rw [List.append_nil, List.append_nil] at hrun
  rw [lines, hrun, linesFrom, if_neg (by simpa using hne), List.reverse_reverse]
  rfl

end

theorem trimmedLines_append (hcs : '\n' ∉ cs) :
    trimmedLines (cs ++ '\n' :: rest) = trimEnd cs :: trimmedLines rest :=
  map_lines_append trimEnd_endLine hcs

theorem trimmedLines_last (hcs : '\n' ∉ cs) (hne : cs ≠ []) : trimmedLines cs = [trimEnd cs] :=
  map_lines_last hcs hne

/-- The front of a text that has its first `k` lines, with their ends. -/
def firstLines : Nat → List Char → List Char
  | 0, _ => []
  | _ + 1, [] => []
  | k + 1, '\n' :: rest => '\n' :: firstLines k rest
  | k + 1, c :: rest => c :: firstLines (k + 1) rest

theorem linesFrom_firstLines (before : List Char) (k : Nat) (cs : List Char) :
    linesFrom before (firstLines (k + 1) cs) = (linesFrom before cs).take (k + 1) := by
  induction cs generalizing before k with
  | nil =>
    rw [firstLines, linesFrom]
    split <;> simp
  | cons c rest ih =>
    by_cases hc : c = '\n'
    · subst hc
      rw [firstLines, linesFrom, linesFrom, List.take_succ_cons]
      cases k with
      | zero =>
        rw [firstLines, List.take_zero]
        rfl
      | succ k => rw [ih]
    · rw [firstLines.eq_4 k c rest hc, linesFrom.eq_3 _ _ _ hc, linesFrom.eq_3 _ _ _ hc, ih]

/-- The first lines of a text are the lines of its front. -/
theorem lines_firstLines (k : Nat) (cs : List Char) : lines (firstLines k cs) = (lines cs).take k := by
  cases k with
  | zero =>
    rw [firstLines, List.take_zero]
    rfl
  | succ k => exact linesFrom_firstLines [] k cs

/-- A text up to the end of its `k`th line. -/
def throughLine (k : Nat) (text : String) : String := String.ofList (firstLines k text.toList)

theorem zipIdx_lines_throughLine (k i : Nat) (text : String) :
    (lines (throughLine k text).toList).zipIdx i = ((lines text.toList).zipIdx i).take k := by
  rw [throughLine, String.toList_ofList, lines_firstLines]
  refine List.ext_getElem? fun j => ?_
  rw [List.getElem?_zipIdx, List.getElem?_take, List.getElem?_take, List.getElem?_zipIdx]
  split <;> rfl

end Text
end ClassRelabel
