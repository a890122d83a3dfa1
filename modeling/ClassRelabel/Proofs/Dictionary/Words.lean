/-
The words of a name.

Under any notions of capital and small letter, the words of a text follow each other in it with
nothing left out (`flatten_wordsBy`), and none is empty but the one of the empty text.  They are cut
apart where the characters say so: `Cut` looks at three characters and knows nothing of words
(`startsAt_wordsBy`).  So what a rule keeps of a match, its first or last word, is never empty.
Around the match nothing changes (`Rule.exists_parts`).
-/
import ClassRelabel.Dictionary.Basic
import ClassRelabel.Pattern.Standard

namespace ClassRelabel
namespace CamelCase

variable {upper lower : Char → Bool} {before : Char} {word cs : List Char}

/-- One of the words starts at position `i` of the text that they make up. -/
def StartsAt (ws : List (List Char)) (i : Nat) : Prop :=
  ∃ front w back, ws = front ++ w :: back ∧ front.flatten.length = i

/-- Behind the character at `i` stands a capital.  Either that character is none, or a small letter
follows the capital. -/
def Cut (upper lower : Char → Bool) (cs : List Char) (i : Nat) : Prop :=
  ∃ before c, cs[i]? = some before ∧ cs[i + 1]? = some c ∧ upper c = true ∧
    (upper before = false ∨ ∃ after, cs[i + 2]? = some after ∧ lower after = true)

/-! ## Nothing is left out -/

theorem flatten_wordsFrom (before : Char) (word cs : List Char) :
    (wordsFrom upper lower before word cs).flatten = word.reverse ++ cs := by
  induction cs generalizing before word with
  | nil => simp [wordsFrom]
  | cons c rest ih =>
    rw [wordsFrom]
    split
    · rw [List.flatten_cons, ih, List.reverse_singleton, List.singleton_append]
    · rw [ih, List.reverse_cons, List.append_assoc, List.singleton_append]

theorem flatten_wordsBy (cs : List Char) : (wordsBy upper lower cs).flatten = cs := by
  cases cs with
  | nil => rfl
  | cons c rest => exact flatten_wordsFrom c [c] rest

theorem ne_nil_of_mem_wordsFrom {w : List Char} (hword : word ≠ [])
    (hw : w ∈ wordsFrom upper lower before word cs) : w ≠ [] := by
  induction cs generalizing before word with
  | nil =>
    rw [wordsFrom, List.mem_singleton] at hw
    rwa [hw, Ne, List.reverse_eq_nil_iff]
  | cons c rest ih =>
    rw [wordsFrom] at hw
    split at hw
    · rcases List.mem_cons.mp hw with rfl | hw
      · rwa [Ne, List.reverse_eq_nil_iff]
      · exact ih (List.cons_ne_nil c []) hw
    · exact ih (List.cons_ne_nil c word) hw

theorem ne_nil_of_mem_wordsBy {w : List Char} (hcs : cs ≠ [])
    (hw : w ∈ wordsBy upper lower cs) : w ≠ [] := by
  obtain ⟨c, rest, rfl⟩ := List.exists_cons_of_ne_nil hcs
  exact ne_nil_of_mem_wordsFrom (List.cons_ne_nil c []) hw

theorem wordsFrom_ne_nil (before : Char) (word cs : List Char) :
    wordsFrom upper lower before word cs ≠ [] := by
  induction cs generalizing before word with
  | nil => simp [wordsFrom]
  | cons c rest ih =>
    rw [wordsFrom]
    split
    · exact List.cons_ne_nil _ _
    · exact ih c (c :: word)

theorem wordsBy_ne_nil (cs : List Char) : wordsBy upper lower cs ≠ [] := by
  cases cs with
  | nil => exact List.cons_ne_nil [] []
  | cons c rest => exact wordsFrom_ne_nil c [c] rest

/-! ## Where words start -/

theorem startsAt_singleton {w : List Char} {i : Nat} : StartsAt [w] i ↔ i = 0 := by
  constructor
  · rintro ⟨front, v, back, hws, rfl⟩
    obtain rfl : front = [] := by
      have hlength := congrArg List.length hws
      simp only [List.length_append, List.length_cons, List.length_nil] at hlength
      exact List.eq_nil_of_length_eq_zero (by omega)
    rfl
  · rintro rfl
    exact ⟨[], w, [], rfl, rfl⟩

/-- The words behind the first one start as much later as it is long. -/
theorem startsAt_cons {w : List Char} {ws : List (List Char)} {i : Nat} :
    StartsAt (w :: ws) i ↔ i = 0 ∨ ∃ k, StartsAt ws k ∧ i = w.length + k := by
  constructor
  · rintro ⟨_ | ⟨v, front⟩, u, back, hws, rfl⟩
    · exact .inl rfl
    · rw [List.cons_append, List.cons.injEq] at hws
      obtain ⟨rfl, rfl⟩ := hws
      refine .inr ⟨front.flatten.length, ⟨front, u, back, rfl, rfl⟩, ?_⟩
      rw [List.flatten_cons, List.length_append]
  · rintro (rfl | ⟨k, ⟨front, u, back, rfl, rfl⟩, rfl⟩)
    · exact ⟨[], w, ws, rfl, rfl⟩
    · refine ⟨w :: front, u, back, rfl, ?_⟩
      rw [List.flatten_cons, List.length_append]

theorem cut_singleton {c : Char} {i : Nat} : ¬Cut upper lower [c] i := by
  rintro ⟨_, _, _, hnext, -⟩
  simp at hnext

theorem cut_zero {c : Char} {rest : List Char} :
    Cut upper lower (before :: c :: rest) 0 ↔
      startsWord upper lower before c rest.head? = true := by
  rw [startsWord, Bool.and_eq_true, Bool.or_eq_true, Bool.not_eq_true', Option.any_eq_true]
  constructor
  · rintro ⟨b, d, hb, hd, hupper, h⟩
    obtain rfl : before = b := Option.some.inj hb
    obtain rfl : c = d := Option.some.inj hd
    refine ⟨hupper, h.imp_right fun ⟨after, hafter, hlower⟩ => ⟨after, ?_, hlower⟩⟩
    rwa [List.head?_eq_getElem?]
  · rintro ⟨hupper, h⟩
    refine ⟨before, c, rfl, rfl, hupper, h.imp_right fun ⟨after, hafter, hlower⟩ => ?_⟩
    rw [List.head?_eq_getElem?] at hafter
    exact ⟨after, hafter, hlower⟩

theorem cut_succ {rest : List Char} {i : Nat} :
    Cut upper lower (before :: rest) (i + 1) ↔ Cut upper lower rest i := Iff.rfl

/-- Behind an open word that ends with `before`, words start at the cuts of what follows. -/
theorem startsAt_wordsFrom {i : Nat} :
    StartsAt (wordsFrom upper lower before word cs) i ↔
      i = 0 ∨ ∃ k, Cut upper lower (before :: cs) k ∧ i = word.length + k := by
  induction cs generalizing before word i with
  | nil =>
    rw [wordsFrom, startsAt_singleton]
    exact ⟨.inl, fun h => h.resolve_right fun ⟨_, hcut, _⟩ => cut_singleton hcut⟩
  | cons c rest ih =>
    -- The cut at zero is the one in front of `c`, and the later ones are those behind it.
    have hsplit : (∃ k, Cut upper lower (before :: c :: rest) k ∧ i = word.length + k) ↔
        (startsWord upper lower before c rest.head? = true ∧ i = word.length) ∨
          ∃ k, Cut upper lower (c :: rest) k ∧ i = word.length + 1 + k := by
      constructor
      · rintro ⟨_ | k, hcut, rfl⟩
        · exact .inl ⟨cut_zero.mp hcut, rfl⟩
        · exact .inr ⟨k, cut_succ.mp hcut, by omega⟩
      · rintro (⟨hstarts, rfl⟩ | ⟨k, hcut, rfl⟩)
        · exact ⟨0, cut_zero.mpr hstarts, rfl⟩
        · exact ⟨k + 1, cut_succ.mpr hcut, by omega⟩
    rw [wordsFrom, hsplit]
    split
    · rename_i hstarts
      rw [startsAt_cons, List.length_reverse]
      refine or_congr_right ⟨?_, ?_⟩
      · rintro ⟨j, hj, rfl⟩
        rcases ih.mp hj with rfl | ⟨k, hcut, rfl⟩
        · exact .inl ⟨hstarts, rfl⟩
        · exact .inr ⟨k, hcut, by rw [List.length_singleton]; omega⟩
      · rintro (⟨-, rfl⟩ | ⟨k, hcut, rfl⟩)
        · exact ⟨0, ih.mpr (.inl rfl), rfl⟩
        · exact ⟨1 + k, ih.mpr (.inr ⟨k, hcut, rfl⟩), by omega⟩
    · rename_i hstarts
      rw [ih, List.length_cons]
      refine or_congr_right ⟨.inr, fun h => h.resolve_left fun h => hstarts h.1⟩

/-- Inside a text words start at its cuts and nowhere else. -/
theorem startsAt_wordsBy {i : Nat} :
    StartsAt (wordsBy upper lower cs) (i + 1) ↔ Cut upper lower cs i := by
  cases cs with
  | nil =>
    rw [wordsBy, startsAt_singleton]
    refine ⟨fun h => absurd h (Nat.succ_ne_zero i), ?_⟩
    rintro ⟨_, _, h, -⟩
    simp at h
  | cons c rest =>
    rw [wordsBy, startsAt_wordsFrom, List.length_singleton]
    constructor
    · rintro (hzero | ⟨k, hcut, heq⟩)
      · exact absurd hzero (Nat.succ_ne_zero i)
      · obtain rfl : i = k := by omega
        exact hcut
    · exact fun hcut => .inr ⟨i, hcut, Nat.add_comm i 1⟩

/-! ## The first and the last word -/

theorem exists_first (cs : List Char) :
    ∃ w, (wordsBy upper lower cs).head? = some w ∧ w <+: cs := by
  obtain ⟨w, ws, hws⟩ := List.exists_cons_of_ne_nil (@wordsBy_ne_nil upper lower cs)
  have hflatten := @flatten_wordsBy upper lower cs
  rw [hws, List.flatten_cons] at hflatten
  exact ⟨w, by rw [hws, List.head?_cons], ws.flatten, hflatten⟩

theorem exists_last (cs : List Char) :
    ∃ w, (wordsBy upper lower cs).getLast? = some w ∧ w <:+ cs := by
  obtain ⟨ws, w, hws⟩ := (List.eq_nil_or_concat (wordsBy upper lower cs)).resolve_left
    (wordsBy_ne_nil cs)
  have hflatten := @flatten_wordsBy upper lower cs
  rw [hws, List.concat_eq_append, List.flatten_append, List.flatten_singleton] at hflatten
  refine ⟨w, ?_, ws.flatten, hflatten⟩
  rw [hws, List.concat_eq_append, List.getLast?_concat]

end CamelCase

namespace Action

variable {p : Pattern} {name w : List Char} {f : Pattern.Found}

theorem result_firstWord
    (hw : (CamelCase.words (Pattern.slice name (f.start, f.stop))).head? = some w) :
    firstWord.result p name f = w := by
  rw [result, List.headD_eq_head?_getD, hw, Option.getD_some]

theorem result_lastWord
    (hw : (CamelCase.words (Pattern.slice name (f.start, f.stop))).getLast? = some w) :
    lastWord.result p name f = w := by
  rw [result, List.getLastD_eq_getLast?, hw, Option.getD_some]

end Action

/-- A rule that applies puts what its action makes of the match in the place of the match. -/
theorem Rule.result?_of_find? {r : Rule} {name type : String} {f : Pattern.Found}
    (haccepts : r.acceptsType type = true) (hf : r.pattern.find? name.toList = some f) :
    r.result? name type = some (String.ofList (name.toList.take f.start ++
      r.action.result r.pattern name.toList f ++ name.toList.drop f.stop)) := by
  rw [Rule.result?, if_pos haccepts]
  simp only [hf, Option.map_some]

/-- A rule that applies changes what its pattern matches and nothing around it. -/
theorem Rule.exists_parts {r : Rule} {name type new : String} (h : r.result? name type = some new) :
    ∃ f before span after, r.pattern.find? name.toList = some f ∧
      name.toList = before ++ span ++ after ∧
      new.toList = before ++ r.action.result r.pattern name.toList f ++ after := by
  rw [Rule.result?] at h
  split at h
  · obtain ⟨f, hf, rfl⟩ := Option.map_eq_some_iff.mp h
    refine ⟨f, _, _, _, hf, (Pattern.append_slice hf).symm, ?_⟩
    rw [String.toList_ofList]
  · simp at h

namespace CamelCase

/-- The words of a text are a partition of it.  They have its characters in order, none is empty
unless the text is, and inside the text a word starts at the cuts and nowhere else.  So a rule that
keeps the first or the last word of a match with characters leaves a beginning or an end of the
match that has characters too. -/
theorem partition_wordsBy :
    (∀ (upper lower : Char → Bool) (cs : List Char), (wordsBy upper lower cs).flatten = cs ∧
      (cs ≠ [] → ∀ w ∈ wordsBy upper lower cs, w ≠ []) ∧
      ∀ i, StartsAt (wordsBy upper lower cs) (i + 1) ↔ Cut upper lower cs i) ∧
    ∀ (r : Rule) (name type : String) (f : Pattern.Found), r.acceptsType type = true →
      r.pattern.find? name.toList = some f →
      ∀ span, Pattern.slice name.toList (f.start, f.stop) = span → span ≠ [] →
      (r.action = .firstWord → ∃ w, (words span).head? = some w ∧ w ≠ [] ∧ w <+: span ∧
        r.result? name type =
          some (String.ofList (name.toList.take f.start ++ w ++ name.toList.drop f.stop))) ∧
      (r.action = .lastWord → ∃ w, (words span).getLast? = some w ∧ w ≠ [] ∧ w <:+ span ∧
        r.result? name type =
          some (String.ofList (name.toList.take f.start ++ w ++ name.toList.drop f.stop))) := by
  refine ⟨fun upper lower cs => ⟨flatten_wordsBy cs, fun hcs w => ne_nil_of_mem_wordsBy hcs,
    fun i => startsAt_wordsBy⟩, ?_⟩
  rintro r name type f haccepts hf span rfl hspan
  have hresult := Rule.result?_of_find? haccepts hf
  constructor
  · intro haction
    obtain ⟨w, hw, hfront⟩ := exists_first (Pattern.slice name.toList (f.start, f.stop))
    refine ⟨w, hw, ne_nil_of_mem_wordsBy hspan (List.mem_of_head? hw), hfront, ?_⟩
    rw [hresult, haction, Action.result_firstWord hw]
  · intro haction
    obtain ⟨w, hw, hback⟩ := exists_last (Pattern.slice name.toList (f.start, f.stop))
    refine ⟨w, hw, ne_nil_of_mem_wordsBy hspan (List.mem_of_getLast? hw), hback, ?_⟩
    rw [hresult, haction, Action.result_lastWord hw]

/-! ### A run of capitals inside a name -/

namespace Capitals

def pattern : Pattern := (Pattern.Engine.standard.compile "IOMap").toOption.get (by decide +kernel)

def rule (a : Action) : Rule := ⟨pattern, none, a⟩

def name : String := "myIOMapKey"

def found : Pattern.Found := ⟨2, 7, []⟩

def span : List Char := "IOMap".toList

theorem words_span : words span = ["IO".toList, "Map".toList] := by decide +kernel

end Capitals

theorem partition_wordsBy_capitals :
    Capitals.pattern.find? Capitals.name.toList = some Capitals.found ∧
      Pattern.slice Capitals.name.toList (Capitals.found.start, Capitals.found.stop) =
        Capitals.span ∧
      Capitals.span ≠ [] ∧ (∀ w ∈ words Capitals.span, w ≠ []) ∧
      (Capitals.rule .firstWord).result? Capitals.name "net/Key" = some "myIOKey" ∧
      (Capitals.rule .lastWord).result? Capitals.name "net/Key" = some "myMapKey" := by
  have hfound : Capitals.pattern.find? Capitals.name.toList = some Capitals.found := by
    decide +kernel
  have hslice : Pattern.slice Capitals.name.toList (Capitals.found.start, Capitals.found.stop) =
      Capitals.span := by decide +kernel
  have hspan : Capitals.span ≠ [] := by decide
  refine ⟨hfound, hslice, hspan, (partition_wordsBy.1 _ _ _).2.1 hspan, ?_, ?_⟩
  · obtain ⟨w, hw, -, -, hresult⟩ := (partition_wordsBy.2 (Capitals.rule .firstWord)
      Capitals.name "net/Key" _ rfl hfound _ hslice hspan).1 rfl
    rw [Capitals.words_span] at hw
    obtain rfl := Option.some.inj hw
    rw [hresult]
    decide +kernel
  · obtain ⟨w, hw, -, -, hresult⟩ := (partition_wordsBy.2 (Capitals.rule .lastWord)
      Capitals.name "net/Key" _ rfl hfound _ hslice hspan).2 rfl
    rw [Capitals.words_span] at hw
    obtain rfl := Option.some.inj hw
    rw [hresult]
    decide +kernel

end CamelCase
end ClassRelabel
