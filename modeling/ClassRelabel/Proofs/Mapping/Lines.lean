/-
The records of a mapping file, however it is laid out.

`Layout records text` says that the text has the records on lines of their own, with blanks behind
them and with silent lines anywhere: blank ones and comments.  Nothing of it reaches the readers
(`Layout.records_eq`).
-/
import ClassRelabel.Mapping.Line
import ClassRelabel.Proofs.Text.Lines

namespace ClassRelabel
namespace Mapping

open Text

/-! ## Layout -/

/-- A line without words or with a comment. -/
inductive Silent : List Char → Prop
  | blank {cs : List Char} (hcs : AllBlank cs) : Silent cs
  | comment {blanks rest : List Char} (hblanks : AllBlank blanks) : Silent (blanks ++ '#' :: rest)

/-- The text has the records in order.  Its last line may end without a line feed. -/
inductive Layout : List (List Char) → List Char → Prop
  | nil : Layout [] []
  | record {r blanks text : List Char} {rs : List (List Char)} (hblanks : AllBlank blanks)
      (hfeed : '\n' ∉ blanks) (hrest : Layout rs text) :
      Layout (r :: rs) (r ++ blanks ++ '\n' :: text)
  | lastRecord {r blanks : List Char} (hblanks : AllBlank blanks) (hfeed : '\n' ∉ blanks) :
      Layout [r] (r ++ blanks)
  | silent {l text : List Char} {rs : List (List Char)} (hl : Silent l) (hfeed : '\n' ∉ l)
      (hrest : Layout rs text) : Layout rs (l ++ '\n' :: text)
  | lastSilent {l : List Char} (hl : Silent l) (hfeed : '\n' ∉ l) : Layout [] l

theorem layout_lines (rs : List (List Char)) : Layout rs (rs.flatMap fun r => r ++ ['\n']) := by
  induction rs with
  | nil => exact .nil
  | cons r rs ih =>
    have hrecord : Layout (r :: rs) (r ++ [] ++ '\n' :: _) :=
      .record (fun _ h => by simp at h) (List.not_mem_nil) ih
    simpa using hrecord

/-- A record has no line feed, ends with a word and is no comment. -/
structure Speaks (r : List Char) : Prop where
  feed : '\n' ∉ r
  ends : ∃ front c, r = front ++ [c] ∧ isBlank c = false
  word : ∃ blanks c rest, r = blanks ++ c :: rest ∧ AllBlank blanks ∧ isBlank c = false ∧ c ≠ '#'

def isSilent (cs : List Char) : Bool := (Line.mk 0 cs).isSilent

theorem Speaks.trimEnd_append {r blanks : List Char} (h : Speaks r) (hblanks : AllBlank blanks) :
    trimEnd (r ++ blanks) = r := by
  obtain ⟨front, c, rfl, hc⟩ := h.ends
  rw [List.append_assoc, List.singleton_append, trimEnd_append_cons hc,
    trimEnd_of_allBlank hblanks]

theorem Speaks.isSilent_eq {r : List Char} (h : Speaks r) : isSilent r = false := by
  obtain ⟨blanks, c, rest, rfl, hblanks, hc, hcomment⟩ := h.word
  rw [isSilent, Line.isSilent, trimStart_append hblanks hc]
  simpa using hcomment

theorem Silent.isSilent_trimEnd {l : List Char} (h : Silent l) : isSilent (trimEnd l) = true := by
  cases h with
  | blank hcs =>
    rw [trimEnd_of_allBlank hcs]
    rfl
  | comment hblanks =>
    rw [trimEnd_append_cons (by decide), isSilent, Line.isSilent,
      trimStart_append hblanks (by decide)]
    rfl

/-- The lines of a text that say something, without the blanks behind them. -/
def spoken (text : List Char) : List (List Char) := (trimmedLines text).filter fun l => !isSilent l

theorem map_chars_records (text : String) : (records text).map Line.chars = spoken text.toList := by
  have hfilter : ∀ (ls : List (List Char)) (k : Nat),
      (((ls.zipIdx k).map fun l => (⟨l.2 + 1, trimEnd l.1⟩ : Line)).filter
        fun l => !l.isSilent).map Line.chars = (ls.map trimEnd).filter fun l => !isSilent l := by
    intro ls
    induction ls with
    | nil => exact fun _ => rfl
    | cons cs ls ih =>
      intro k
      have hsame : (Line.mk (k + 1) (trimEnd cs)).isSilent = isSilent (trimEnd cs) := rfl
      simp only [List.zipIdx_cons, List.map_cons, List.filter_cons, hsame]
      split
      · rw [List.map_cons, ih]
      · exact ih _
  exact hfilter _ _

theorem Layout.spoken_eq {rs : List (List Char)} {text : List Char} (h : Layout rs text)
    (hrs : ∀ r ∈ rs, Speaks r) : spoken text = rs := by
  induction h with
  | nil => rfl
  | @record r blanks text rs hblanks hfeed _ ih =>
    obtain ⟨hr, hrs⟩ := List.forall_mem_cons.mp hrs
    have hline : '\n' ∉ r ++ blanks := by
      rw [List.mem_append, not_or]
      exact ⟨hr.feed, hfeed⟩
    rw [spoken, trimmedLines_append hline, hr.trimEnd_append hblanks,
      List.filter_cons_of_pos (by simp [hr.isSilent_eq])]
    exact congrArg _ (ih hrs)
  | @lastRecord r blanks hblanks hfeed =>
    have hr := hrs r List.mem_cons_self
    have hline : '\n' ∉ r ++ blanks := by
      rw [List.mem_append, not_or]
      exact ⟨hr.feed, hfeed⟩
    have hne : r ++ blanks ≠ [] := by
      obtain ⟨front, c, rfl, -⟩ := hr.ends
      simp
    rw [spoken, trimmedLines_last hline hne, hr.trimEnd_append hblanks,
      List.filter_cons_of_pos (by simp [hr.isSilent_eq])]
    rfl
  | silent hl hfeed _ ih =>
    rw [spoken, trimmedLines_append hfeed,
      List.filter_cons_of_neg (by simp [hl.isSilent_trimEnd])]
    exact ih hrs
  | @lastSilent l hl hfeed =>
    by_cases hne : l = []
    · rw [hne]
      rfl
    · rw [spoken, trimmedLines_last hfeed hne,
        List.filter_cons_of_neg (by simp [hl.isSilent_trimEnd])]
      rfl

/-- Only the records of a layout are read. -/
theorem Layout.records_eq {rs : List (List Char)} {text : String} (h : Layout rs text.toList)
    (hrs : ∀ r ∈ rs, Speaks r) : (records text).map Line.chars = rs := by
  rw [map_chars_records, h.spoken_eq hrs]

end Mapping
end ClassRelabel
