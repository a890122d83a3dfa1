/-
Dictionaries are read back.

`Dictionary.Layout engine rs text` says that the text has the rules on lines of their own, indented
and with blanks and comments behind them in any way, and with silent lines anywhere.  What is left
of a line is the rule's text (`content_append`), and the reader takes it for the rule
(`parse_spelled`).  A text that cannot be read has a first line that is to blame
(`parse_of_layout`).
All this holds with every engine: which texts are patterns is its own affair.
-/
import ClassRelabel.Dictionary.Basic
import ClassRelabel.Pattern.Standard
import ClassRelabel.Proofs.Effect
import ClassRelabel.Proofs.Mapping.Lines
import ClassRelabel.Proofs.Text.Split

namespace ClassRelabel

open Text Mapping

variable {engine : Pattern.Engine} {cs ws l text : List Char} {r : Rule} {rs : List Rule}

/-! ## Spelling -/

/-- A text that a line can have behind other text: no line feed, no comment and no blank at the
end. -/
structure IsValue (cs : List Char) : Prop where
  feed : '\n' ∉ cs
  comment : '#' ∉ cs
  last : ∃ front c, cs = front ++ [c] ∧ isBlank c = false

/-- A text that a line can have for itself. -/
structure IsContent (cs : List Char) : Prop extends IsValue cs where
  first : ∃ c rest, cs = c :: rest ∧ isBlank c = false

def Action.keywords : List String := ["RENAME", "PREFIX", "SUFFIX", "FIRST", "LAST"]

/-- The texts of an action.  A replacement needs no keyword if its text begins with none. -/
inductive Action.Spelled : Action → List Char → Prop
  | replace {value : String} (hvalue : IsValue value.toList) :
      Spelled (.replace value) ("RENAME:".toList ++ value.toList)
  | before {value : String} (hvalue : IsValue value.toList) :
      Spelled (.before value) ("PREFIX:".toList ++ value.toList)
  | after {value : String} (hvalue : IsValue value.toList) :
      Spelled (.after value) ("SUFFIX:".toList ++ value.toList)
  | firstWord : Spelled .firstWord "FIRST".toList
  | lastWord : Spelled .lastWord "LAST".toList
  | bare {value : String} (hvalue : IsContent value.toList)
      (hkeyword : String.ofList (value.toList.takeWhile (· != ':')) ∉ keywords) :
      Spelled (.replace value) value.toList

/-- A pattern that can stand in a rule. -/
structure Pattern.IsSource (engine : Engine) (p : Pattern) : Prop where
  word : IsWord p.source.toList
  comment : '#' ∉ p.source.toList
  compiles : engine.compile p.source = .ok p

/-- The patterns of a rule can be written down.  Only the filter may have colons. -/
structure Rule.Spellable (engine : Pattern.Engine) (r : Rule) : Prop where
  pattern : r.pattern.IsSource engine
  colon : ':' ∉ r.pattern.source.toList
  filter : ∀ q, r.filter = some q → q.IsSource engine

def Rule.trigger (r : Rule) : List Char :=
  match r.filter with
  | none => r.pattern.source.toList
  | some q => r.pattern.source.toList ++ ':' :: q.source.toList

/-- The texts of a rule. -/
inductive Rule.Spelled (engine : Pattern.Engine) (r : Rule) : List Char → Prop
  | intro {blanks action : List Char} (hr : r.Spellable engine) (hne : blanks ≠ [])
      (hblanks : AllBlank blanks) (hfeed : '\n' ∉ blanks) (haction : r.action.Spelled action) :
      Spelled engine r (r.trigger ++ blanks ++ action)

/-- The text has the rules in order.  A silent line is blank or a comment, and may stand behind a
rule too. -/
inductive Dictionary.Layout (engine : Pattern.Engine) : List Rule → List Char → Prop
  | nil : Layout engine [] []
  | rule {r : Rule} {rs : List Rule} {indent ws l text : List Char} (hindent : AllBlank indent)
      (hfeed : '\n' ∉ indent) (hr : r.Spelled engine ws) (hl : Silent l) (hlfeed : '\n' ∉ l)
      (hrest : Layout engine rs text) : Layout engine (r :: rs) (indent ++ ws ++ l ++ '\n' :: text)
  | lastRule {r : Rule} {indent ws l : List Char} (hindent : AllBlank indent)
      (hfeed : '\n' ∉ indent) (hr : r.Spelled engine ws) (hl : Silent l) (hlfeed : '\n' ∉ l) :
      Layout engine [r] (indent ++ ws ++ l)
  | silent {rs : List Rule} {l text : List Char} (hl : Silent l) (hlfeed : '\n' ∉ l)
      (hrest : Layout engine rs text) : Layout engine rs (l ++ '\n' :: text)
  | lastSilent {l : List Char} (hl : Silent l) (hlfeed : '\n' ∉ l) : Layout engine [] l

/-! ## Contents -/

/-- What is cut off a line is blank up to the comment. -/
theorem takeWhile_silent (hl : Silent l) : ∃ blanks, AllBlank blanks ∧
    ∀ front, '#' ∉ front → (front ++ l).takeWhile (· != '#') = front ++ blanks := by
  cases hl with
  | blank hcs =>
    refine ⟨l, hcs, fun front hfront => ?_⟩
    have hmem : '#' ∉ front ++ l := by
      rw [List.mem_append, not_or]
      exact ⟨hfront, hcs.not_mem (by decide)⟩
    exact List.takeWhile_eq_self_iff.mpr (all_ne hmem)
  | @comment blanks rest hblanks =>
    refine ⟨blanks, hblanks, fun front hfront => ?_⟩
    have hmem : '#' ∉ front ++ blanks := by
      rw [List.mem_append, not_or]
      exact ⟨hfront, hblanks.not_mem (by decide)⟩
    rw [← List.append_assoc, Text.takeWhile_append hmem]

theorem content_silent (hl : Silent l) : Rule.content l = [] := by
  obtain ⟨blanks, hblanks, hcut⟩ := takeWhile_silent hl
  have hstart : trimStart blanks = [] := List.dropWhile_eq_nil_iff.mpr hblanks
  rw [Rule.content, ← List.nil_append l, hcut [] List.not_mem_nil, List.nil_append, trim, hstart]
  rfl

/-- What is left of a line is its text. -/
theorem content_append {indent : List Char} (hindent : AllBlank indent) (hws : IsContent ws)
    (hl : Silent l) : Rule.content (indent ++ ws ++ l) = ws := by
  obtain ⟨blanks, hblanks, hcut⟩ := takeWhile_silent hl
  have hmem : '#' ∉ indent ++ ws := by
    rw [List.mem_append, not_or]
    exact ⟨hindent.not_mem (by decide), hws.comment⟩
  have hstart : trimStart (indent ++ ws ++ blanks) = ws ++ blanks := by
    obtain ⟨c, rest, rfl, hc⟩ := hws.first
    rw [List.append_assoc, List.cons_append, trimStart_append hindent hc]
  obtain ⟨front, c, hfront, hc⟩ := hws.last
  rw [Rule.content, hcut _ hmem, trim, hstart, hfront, List.append_assoc, List.singleton_append,
    trimEnd_append_cons hc, trimEnd_of_allBlank hblanks]

theorem trimStart_concat_blank {c : Char} (hc : isBlank c = true) :
    trimStart (cs ++ [c]) = trimStart cs ++ [c] ∨
      trimStart (cs ++ [c]) = [] ∧ trimStart cs = [] := by
  rw [trimStart, List.dropWhile_append, ← trimStart]
  split
  · rename_i hempty
    exact .inr ⟨by simp [hc], List.isEmpty_iff.mp hempty⟩
  · exact .inl rfl

theorem content_concat_return (cs : List Char) : Rule.content (cs ++ ['\r']) = Rule.content cs := by
  have hblank : isBlank '\r' = true := by decide
  rw [Rule.content, Rule.content, List.takeWhile_append]
  split
  · rename_i hall
    have htake : cs.takeWhile (· != '#') = cs :=
      (List.takeWhile_prefix _).eq_of_length hall
    rw [htake, trim, trim]
    rcases @trimStart_concat_blank cs _ hblank with hstart | ⟨hstart, hnone⟩
    · exact (congrArg trimEnd hstart).trans (trimEnd_concat_blank hblank)
    · exact congrArg trimEnd (hstart.trans hnone.symm)
  · rfl

/-- The contents of the lines of a text. -/
def contents (cs : List Char) : List (List Char) := (lines cs).map Rule.content

theorem content_endLine (before : List Char) :
    Rule.content (endLine before) = Rule.content before.reverse := by
  unfold endLine
  split
  · rw [List.reverse_cons, content_concat_return]
  · rfl

theorem contents_append (hcs : '\n' ∉ cs) :
    contents (cs ++ '\n' :: text) = Rule.content cs :: contents text :=
  map_lines_append content_endLine hcs

theorem contents_last (hcs : '\n' ∉ cs) (hne : cs ≠ []) : contents cs = [Rule.content cs] :=
  map_lines_last hcs hne

/-! ## Rules -/

theorem IsValue.append_left {front : List Char} (h : IsValue cs) (hfeed : '\n' ∉ front)
    (hcomment : '#' ∉ front) : IsValue (front ++ cs) := by
  obtain ⟨before, c, hlast, hc⟩ := h.last
  constructor
  · rw [List.mem_append, not_or]
    exact ⟨hfeed, h.feed⟩
  · rw [List.mem_append, not_or]
    exact ⟨hcomment, h.comment⟩
  · exact ⟨front ++ before, c, by rw [hlast, List.append_assoc], hc⟩

theorem Action.Spelled.isContent {a : Action} (h : a.Spelled cs) : IsContent cs := by
  -- A keyword in front has none of the characters that end a text.
  have hkeyword : ∀ {c : Char} {front value : List Char}, isBlank c = false →
      '\n' ∉ c :: front → '#' ∉ c :: front → IsValue value → IsContent (c :: front ++ value) :=
    fun {c front value} hc hfeed hcomment hvalue =>
      ⟨hvalue.append_left hfeed hcomment, c, front ++ value, rfl, hc⟩
  cases h with
  | replace hvalue => exact hkeyword (by decide) (by decide) (by decide) hvalue
  | before hvalue => exact hkeyword (by decide) (by decide) (by decide) hvalue
  | after hvalue => exact hkeyword (by decide) (by decide) (by decide) hvalue
  | firstWord =>
    exact ⟨⟨by decide, by decide, "FIRS".toList, 'T', rfl, by decide⟩, 'F', _, rfl, by decide⟩
  | lastWord =>
    exact ⟨⟨by decide, by decide, "LAS".toList, 'T', rfl, by decide⟩, 'L', _, rfl, by decide⟩
  | bare hvalue _ => exact hvalue

/-- A text that begins with no keyword is a replacement as it stands. -/
theorem Action.parse_of_notMem
    (h : String.ofList (cs.takeWhile (· != ':')) ∉ keywords) :
    Action.parse cs = .ok (.replace (String.ofList cs)) := by
  rw [Action.parse]
  cases hcut : splitFirst? ':' cs with
  | none =>
    have htake : cs.takeWhile (· != ':') = cs :=
      List.takeWhile_eq_self_iff.mpr (all_ne (splitFirst?_eq_none.mp hcut))
    rw [htake] at h
    simp only
    split <;> simp_all [keywords]
  | some parts =>
    obtain ⟨rfl, hkeyword⟩ := splitFirst?_eq_some.mp hcut
    rw [Text.takeWhile_append hkeyword] at h
    simp only
    split <;> simp_all [keywords]

/-- A keyword is what stands in front of the first colon, and the value is the rest. -/
theorem Action.parse_keyword {keyword value : String} : ':' ∉ keyword.toList →
    IsValue value.toList → Action.parse (keyword.toList ++ ':' :: value.toList) =
      match keyword with
      | "RENAME" => .ok (.replace value)
      | "PREFIX" => .ok (.before value)
      | "SUFFIX" => .ok (.after value)
      | "FIRST" => .ok .firstWord
      | "LAST" => .ok .lastWord
      | _ => .ok (.replace (String.ofList (keyword.toList ++ ':' :: value.toList))) := by
  intro hkeyword hvalue
  have hne : value.toList.isEmpty = false := by
    obtain ⟨front, c, hlast, -⟩ := hvalue.last
    simp [hlast]
  rw [Action.parse, splitFirst?_append hkeyword]
  simp only [String.ofList_toList, hne]
  rfl

theorem Action.parse_spelled {a : Action} (h : a.Spelled cs) : Action.parse cs = .ok a := by
  cases h with
  | replace hvalue => exact @Action.parse_keyword "RENAME" _ (by decide) hvalue
  | before hvalue => exact @Action.parse_keyword "PREFIX" _ (by decide) hvalue
  | after hvalue => exact @Action.parse_keyword "SUFFIX" _ (by decide) hvalue
  | firstWord => rfl
  | lastWord => rfl
  | bare _ hkeyword => rw [parse_of_notMem hkeyword, String.ofList_toList]

theorem Rule.Spellable.isWord_trigger (h : r.Spellable engine) :
    IsWord r.trigger ∧ '#' ∉ r.trigger := by
  rw [Rule.trigger]
  cases hfilter : r.filter with
  | none => exact ⟨h.pattern.word, h.pattern.comment⟩
  | some q =>
    have hq := h.filter q hfilter
    refine ⟨⟨by simp, fun c hc => ?_⟩, ?_⟩
    · rw [List.mem_append, List.mem_cons] at hc
      rcases hc with hc | rfl | hc
      · exact h.pattern.word.2 c hc
      · decide
      · exact hq.word.2 c hc
    · rw [List.mem_append, List.mem_cons, not_or, not_or]
      exact ⟨h.pattern.comment, by decide, hq.comment⟩

theorem Rule.Spelled.isContent (h : r.Spelled engine ws) : IsContent ws := by
  obtain @⟨blanks, action, hr, -, hblanks, hfeed, haction⟩ := h
  obtain ⟨⟨hne, hword⟩, hcomment⟩ := hr.isWord_trigger
  obtain ⟨c, rest, htrigger⟩ := List.exists_cons_of_ne_nil hne
  refine ⟨haction.isContent.append_left ?_ ?_, c, rest ++ blanks ++ action, ?_, ?_⟩
  · rw [List.mem_append, not_or]
    exact ⟨fun hmem => absurd (hword _ hmem) (by decide), hfeed⟩
  · rw [List.mem_append, not_or]
    exact ⟨hcomment, hblanks.not_mem (by decide)⟩
  · rw [htrigger, List.cons_append, List.cons_append]
  · exact hword c (by rw [htrigger]; exact List.mem_cons_self)

/-- The trigger of a rule is cut at its first colon. -/
theorem Rule.Spellable.splitFirst?_trigger (h : r.Spellable engine) :
    splitFirst? ':' r.trigger =
      r.filter.map fun q => (r.pattern.source.toList, q.source.toList) := by
  rw [Rule.trigger]
  cases r.filter with
  | none => exact splitFirst?_of_notMem h.colon
  | some q => exact splitFirst?_append h.colon

theorem Pattern.IsSource.compile {p : Pattern} (h : p.IsSource engine) :
    Rule.compile engine p.source.toList = .ok p := by
  rw [Rule.compile, String.ofList_toList, h.compiles]
  rfl

/-- What the engine makes of a word is a pattern that can stand in a rule. -/
theorem Pattern.isSource_of_compile {source : String} {p : Pattern}
    (h : engine.compile source = .ok p) (hword : IsWord source.toList)
    (hcomment : '#' ∉ source.toList) : p.IsSource engine := by
  obtain rfl := engine.source_of_compile source p h
  exact ⟨hword, hcomment, h⟩

/-! A word is cut off at the first blank. -/

section

variable {b : Char}

theorem takeWhile_word (hword : ∀ c ∈ cs, isBlank c = false) (hb : isBlank b = true)
    (rest : List Char) : (cs ++ b :: rest).takeWhile (!isBlank ·) = cs := by
  have hall : ∀ c ∈ cs, (!isBlank c) = true := fun c hc => by simp [hword c hc]
  rw [List.takeWhile_append_of_pos hall, List.takeWhile_cons_of_neg (by simp [hb]), List.append_nil]

theorem dropWhile_word (hword : ∀ c ∈ cs, isBlank c = false) (hb : isBlank b = true)
    (rest : List Char) : (cs ++ b :: rest).dropWhile (!isBlank ·) = b :: rest := by
  have hall : ∀ c ∈ cs, (!isBlank c) = true := fun c hc => by simp [hword c hc]
  rw [List.dropWhile_append_of_pos hall, List.dropWhile_cons_of_neg (by simp [hb])]

end

/-- The reader takes the text of a rule for the rule. -/
theorem Rule.parse_spelled (h : r.Spelled engine ws) : Rule.parse engine ws = .ok r := by
  obtain @⟨blanks, action, hr, hne, hblanks, -, haction⟩ := h
  obtain ⟨⟨-, hword⟩, -⟩ := hr.isWord_trigger
  obtain ⟨b, more, rfl⟩ := List.exists_cons_of_ne_nil hne
  have hb : isBlank b = true := hblanks b List.mem_cons_self
  have htrim : trimStart (b :: (more ++ action)) = action := by
    obtain ⟨c, rest, hc, hblank⟩ := haction.isContent.first
    rw [hc, ← List.cons_append, trimStart_append hblanks hblank]
  have hcut := hr.splitFirst?_trigger
  have hpattern := hr.pattern.compile
  rw [Rule.parse, List.append_assoc, List.cons_append]
  simp only [takeWhile_word hword hb, dropWhile_word hword hb, htrim,
    Action.parse_spelled haction]
  obtain ⟨pattern, filter, a⟩ := r
  cases filter with
  | none =>
    simp only [Option.map_none] at hcut
    simp only [hcut]
    rw [if_neg (by simp), Rule.trigger, hpattern]
    rfl
  | some q =>
    have hq := hr.filter q rfl
    obtain ⟨c, rest, hsource⟩ := List.exists_cons_of_ne_nil hq.word.1
    have hfilter : Rule.compile engine (c :: rest) = .ok q := by rw [← hsource, hq.compile]
    simp only [Option.map_some, hsource] at hcut
    simp only [hcut, hpattern]
    rw [if_neg (by simp), Option.mapM_some, hfilter]
    rfl

/-! ## Texts -/

/-- What the content of a line gives. -/
def Rule.ofContent (engine : Pattern.Engine) (content : List Char) :
    Except RuleFault (Option Rule) :=
  if content.isEmpty then .ok none else (Rule.parse engine content).map some

theorem Rule.ofLine_eq (line : List Char × Nat) :
    Rule.ofLine engine line = (Rule.ofContent engine (content line.1)).mapError (.rule line.2) := by
  rw [Rule.ofLine, Rule.ofContent]
  by_cases hempty : (content line.1).isEmpty = true
  · simp only [hempty, if_true]
    rfl
  · simp only [hempty]
    cases Rule.parse engine (content line.1) <;> rfl

theorem Dictionary.parse_eq (text : String) : Dictionary.parse engine text =
    (((lines text.toList).zipIdx 1).mapM (Rule.ofLine engine)).map fun rules =>
      ⟨rules.filterMap id⟩ := by
  rw [Dictionary.parse]
  cases ((lines text.toList).zipIdx 1).mapM (Rule.ofLine engine) <;> rfl

theorem Dictionary.parse_of_contents {text : String} {os : List (Option Rule)}
    (h : List.Forall₂ (fun c o => Rule.ofContent engine c = .ok o) (contents text.toList) os) :
    Dictionary.parse engine text = .ok ⟨os.filterMap id⟩ := by
  have hlines : ((lines text.toList).zipIdx 1).mapM (Rule.ofLine engine) = .ok os := by
    rw [Except.mapM_eq_ok]
    rw [contents, List.forall₂_map_left_iff, ← List.zipIdx_map_fst 1 (lines text.toList),
      List.forall₂_map_left_iff] at h
    refine h.imp fun line o ho => ?_
    rw [Rule.ofLine_eq, ho]
    rfl
  rw [Dictionary.parse_eq, hlines]
  rfl

theorem Rule.ofContent_spelled (h : r.Spelled engine ws) :
    Rule.ofContent engine ws = .ok (some r) := by
  obtain ⟨c, rest, hne, -⟩ := h.isContent.first
  rw [Rule.ofContent, if_neg (by simp [hne]), Rule.parse_spelled h]
  rfl

theorem Rule.Spelled.feed_notMem {indent : List Char} (h : r.Spelled engine ws)
    (hindent : '\n' ∉ indent) (hl : '\n' ∉ l) : '\n' ∉ indent ++ ws ++ l := by
  rw [List.mem_append, List.mem_append, not_or, not_or]
  exact ⟨⟨hindent, h.isContent.feed⟩, hl⟩

/-- The contents of a layout give its rules. -/
theorem Dictionary.Layout.contents_give (h : Dictionary.Layout engine rs text) :
    ∃ os, List.Forall₂ (fun c o => Rule.ofContent engine c = .ok o) (contents text) os ∧
      os.filterMap id = rs := by
  induction h with
  | nil => exact ⟨[], .nil, rfl⟩
  | @rule r rs indent ws l text hindent hifeed hr hl hlfeed _ ih =>
    obtain ⟨os, hos, rfl⟩ := ih
    refine ⟨some r :: os, ?_, rfl⟩
    rw [contents_append (hr.feed_notMem hifeed hlfeed), content_append hindent hr.isContent hl]
    exact .cons (Rule.ofContent_spelled hr) hos
  | @lastRule r indent ws l hindent hifeed hr hl hlfeed =>
    refine ⟨[some r], ?_, rfl⟩
    have hne : indent ++ ws ++ l ≠ [] := by
      obtain ⟨c, rest, hws, -⟩ := hr.isContent.first
      simp [hws]
    rw [contents_last (hr.feed_notMem hifeed hlfeed) hne, content_append hindent hr.isContent hl]
    exact .cons (Rule.ofContent_spelled hr) .nil
  | @silent rs l text hl hlfeed _ ih =>
    obtain ⟨os, hos, rfl⟩ := ih
    refine ⟨none :: os, ?_, rfl⟩
    rw [contents_append hlfeed, content_silent hl]
    exact .cons rfl hos
  | @lastSilent l hl hlfeed =>
    by_cases hne : l = []
    · subst hne
      exact ⟨[], .nil, rfl⟩
    · refine ⟨[none], ?_, rfl⟩
      rw [contents_last hlfeed hne, content_silent hl]
      exact .cons rfl .nil

/-- Rules that can be written down can be laid out. -/
theorem Dictionary.exists_layout (h : ∀ r ∈ rs, ∃ ws, r.Spelled engine ws) :
    ∃ text, Dictionary.Layout engine rs text := by
  induction rs with
  | nil => exact ⟨[], .nil⟩
  | cons r rs ih =>
    obtain ⟨⟨ws, hws⟩, hrest⟩ := List.forall_mem_cons.mp h
    obtain ⟨text, htext⟩ := ih hrest
    have hnone : AllBlank [] := fun _ hc => absurd hc List.not_mem_nil
    exact ⟨_, .rule hnone List.not_mem_nil hws (.blank hnone) List.not_mem_nil htext⟩

/-! ## Faults -/

theorem Rule.exists_cause {line : List Char × Nat} {fault : Fault}
    (h : Rule.ofLine engine line = .error fault) : ∃ cause, fault = .rule line.2 cause := by
  rw [Rule.ofLine_eq] at h
  cases hcontent : Rule.ofContent engine (content line.1) with
  | ok o => simp [hcontent, Except.mapError] at h
  | error cause =>
    rw [hcontent] at h
    exact ⟨cause, (Except.error.inj h).symm⟩

/-- A text that cannot be read has a line that is to blame.  Up to there it can be read, and with
this line it cannot, whatever follows. -/
theorem Dictionary.exists_line {text : String} {fault : Fault}
    (h : Dictionary.parse engine text = .error fault) : ∃ k cause, fault = .rule k cause ∧ 1 ≤ k ∧
      k ≤ (lines text.toList).length ∧
      (∀ j < k, ∃ d, Dictionary.parse engine (throughLine j text) = .ok d) ∧
      ∀ j, k ≤ j → Dictionary.parse engine (throughLine j text) = .error fault := by
  have hfails : ((lines text.toList).zipIdx 1).mapM (Rule.ofLine engine) = .error fault := by
    rw [Dictionary.parse_eq] at h
    cases hlines : ((lines text.toList).zipIdx 1).mapM (Rule.ofLine engine) with
    | ok rules => simp [hlines, Except.map] at h
    | error e =>
      rw [hlines] at h
      rw [Except.error.inj h]
  obtain ⟨k, line, hk, hline, hbefore, hafter⟩ := Except.mapM_eq_error hfails
  obtain ⟨cause, hcause⟩ := Rule.exists_cause hline
  obtain ⟨l, hl, rfl⟩ : ∃ l, (lines text.toList)[k]? = some l ∧ (l, 1 + k) = line := by
    simpa [List.getElem?_zipIdx] using hk
  obtain ⟨hlength, -⟩ := List.getElem?_eq_some_iff.mp hl
  refine ⟨1 + k, cause, hcause, by omega, by omega, fun j hj => ?_, fun j hj => ?_⟩
  · obtain ⟨rules, hrules⟩ := hbefore j (by omega)
    refine ⟨⟨rules.filterMap id⟩, ?_⟩
    rw [Dictionary.parse_eq, zipIdx_lines_throughLine, hrules]
    rfl
  · rw [Dictionary.parse_eq, zipIdx_lines_throughLine, hafter j (by omega)]
    rfl

/-- A text with rules on its lines, laid out in any way, loads to these rules in order, and rules
that can be written down have such a text.  If a text does not load, the line of the fault is the
first one up to which it does not. -/
theorem Dictionary.parse_of_layout (engine : Pattern.Engine) :
    (∀ (rs : List Rule) (text : String), Dictionary.Layout engine rs text.toList →
      Dictionary.parse engine text = .ok ⟨rs⟩) ∧
    (∀ rs : List Rule, (∀ r ∈ rs, ∃ ws, r.Spelled engine ws) →
      ∃ text, Dictionary.Layout engine rs text) ∧
    ∀ (text : String) (fault : Fault), Dictionary.parse engine text = .error fault →
      ∃ k cause, fault = .rule k cause ∧ 1 ≤ k ∧ k ≤ (lines text.toList).length ∧
        (∀ j < k, ∃ d, Dictionary.parse engine (throughLine j text) = .ok d) ∧
        ∀ j, k ≤ j → Dictionary.parse engine (throughLine j text) = .error fault := by
  refine ⟨fun rs text h => ?_, fun rs h => Dictionary.exists_layout h,
    fun text fault h => Dictionary.exists_line h⟩
  obtain ⟨os, hos, rfl⟩ := h.contents_give
  exact Dictionary.parse_of_contents hos

/-! ### A rule with a filter and one without a keyword -/

namespace Dictionary.Sample

abbrev standard : Pattern.Engine := .standard

/-- What the standard engine makes of a text, if it makes anything of it. -/
def pattern? (source : String) : Option Pattern := (standard.compile source).toOption

def trimmed : Rule :=
  ⟨(pattern? "^Abstract(.*)").get (by decide +kernel),
    some ((pattern? "a:b").get (by decide +kernel)), .replace "$1 x"⟩

def paired : Rule :=
  ⟨(pattern? "Entry$").get (by decide +kernel), none, .replace "key:value pair"⟩

/-- The comment line is indented, and one line ends with a carriage return. -/
def file : String :=
  "  # names\n\t^Abstract(.*):a:b  RENAME:$1 x # short\r\n\nEntry$ key:value pair"

/-- The second line has an open bracket. -/
def brokenFile : String := "Entry$ FIRST\n([ LAST\n"

theorem isSource_get {source : String} (h : (pattern? source).isSome = true)
    (hword : IsWord source.toList) (hcomment : '#' ∉ source.toList) :
    ((pattern? source).get h).IsSource standard :=
  Pattern.isSource_of_compile (Except.toOption_eq_some.mp (Option.some_get h).symm) hword hcomment

theorem spelled_trimmed : trimmed.Spelled standard "^Abstract(.*):a:b  RENAME:$1 x".toList := by
  have hr : trimmed.Spellable standard := by
    refine ⟨@isSource_get "^Abstract(.*)" (by decide +kernel) (by decide) (by decide),
      by decide +kernel, fun q hq => ?_⟩
    obtain rfl := Option.some.inj hq
    exact @isSource_get "a:b" (by decide +kernel) (by decide) (by decide)
  have hvalue : IsValue "$1 x".toList :=
    ⟨by decide, by decide, "$1 ".toList, 'x', rfl, by decide⟩
  have htrigger : trimmed.trigger = "^Abstract(.*):a:b".toList := by decide +kernel
  have hspelled : trimmed.Spelled standard (trimmed.trigger ++ [' ', ' '] ++ _) :=
    .intro hr (by decide) (by decide) (by decide) (.replace hvalue)
  rwa [htrigger] at hspelled

theorem spelled_paired : paired.Spelled standard "Entry$ key:value pair".toList := by
  have hr : paired.Spellable standard :=
    ⟨@isSource_get "Entry$" (by decide +kernel) (by decide) (by decide),
      by decide +kernel, fun q hq => by simp [paired] at hq⟩
  have hvalue : IsContent "key:value pair".toList :=
    ⟨⟨by decide, by decide, "key:value pai".toList, 'r', rfl, by decide⟩, 'k', _, rfl, by decide⟩
  have htrigger : paired.trigger = "Entry$".toList := by decide +kernel
  have hspelled : paired.Spelled standard (paired.trigger ++ [' '] ++ _) :=
    .intro hr (by decide) (by decide) (by decide) (.bare hvalue (by decide +kernel))
  rwa [htrigger] at hspelled

theorem layout : Dictionary.Layout standard [trimmed, paired] file.toList := by
  have hfile : file.toList =
      [' ', ' '] ++ '#' :: " names".toList ++ '\n' ::
      (['\t'] ++ "^Abstract(.*):a:b  RENAME:$1 x".toList ++ ([' '] ++ '#' :: " short\r".toList) ++
        '\n' ::
      ([] ++ '\n' ::
      ([] ++ "Entry$ key:value pair".toList ++ []))) := by decide +kernel
  have hblank : Silent [] := .blank (by decide)
  rw [hfile]
  refine .silent (.comment (by decide)) (by decide) (.rule (by decide) (by decide) spelled_trimmed
    (.comment (by decide)) (by decide) (.silent hblank (by decide) ?_))
  exact .lastRule (by decide) (by decide) spelled_paired hblank (by decide)

theorem parse_of_layout_sample :
    Dictionary.Layout standard [trimmed, paired] file.toList ∧
      Dictionary.parse standard file = .ok ⟨[trimmed, paired]⟩ ∧
      (∀ r ∈ [paired, trimmed], ∃ ws, r.Spelled standard ws) ∧
      (∃ text, Dictionary.Layout standard [paired, trimmed] text) ∧
      ∃ fault cause, Dictionary.parse standard brokenFile = .error fault ∧
        fault = .rule 2 (.badPattern cause) ∧
        ∃ d, Dictionary.parse standard (throughLine 1 brokenFile) = .ok d := by
  have hspelled : ∀ r ∈ [paired, trimmed], ∃ ws, r.Spelled standard ws :=
    List.forall_mem_cons.mpr
      ⟨⟨_, spelled_paired⟩, List.forall_mem_singleton.mpr ⟨_, spelled_trimmed⟩⟩
  have hbroken : Dictionary.parse standard brokenFile = .error (.rule 2 (.badPattern "<regex>")) :=
    Except.error?_eq_some.mp (by decide +kernel)
  obtain ⟨hread, hlaid, hfails⟩ := Dictionary.parse_of_layout standard
  obtain ⟨k, cause, hfault, -, -, hbefore, -⟩ := hfails _ _ hbroken
  obtain ⟨rfl, -⟩ := Fault.rule.inj hfault
  exact ⟨layout, hread _ _ layout, hspelled, hlaid _ hspelled, _, _, hbroken, rfl,
    hbefore 1 (by decide)⟩

end Dictionary.Sample

end ClassRelabel
