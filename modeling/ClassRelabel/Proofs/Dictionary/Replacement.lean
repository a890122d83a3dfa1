/-
Replacements mean what they say.

`ReadAs groups cs ps` cuts a replacement into literal characters and references to groups, from
left to right.  The template that is made of a replacement cuts into the same pieces although its
language is another one, so expanding it gives what the pieces give: `expand_toTemplate`, one case
for each kind of piece, and `expand_readAs` for every replacement whose braces are closed.
-/
import ClassRelabel.Dictionary.Basic
import ClassRelabel.Pattern.Standard
import ClassRelabel.Proofs.Text.Decimal
import ClassRelabel.Proofs.Text.Split
import Mathlib.Data.List.Infix

namespace ClassRelabel
namespace Replacement

inductive Piece where
  | literal (c : Char)
  | group (number : Nat)
  | reference (name : List Char)
deriving DecidableEq, Repr

variable {groups n : Nat} {c d : Char} {cs ds name rest : List Char} {ps : List Piece} {g : Groups}

/-- What a piece gives.  A group that a match has no text for gives nothing. -/
def Piece.text (g : Groups) : Piece → List Char
  | literal c => [c]
  | group number => (g.text? number).getD []
  | reference name => Groups.resolve g name

def Piece.literal? : Piece → Option Char
  | literal c => some c
  | _ => none

/-- The number that digits spell. -/
def numberOf (ds : List Char) : Nat := Nat.ofDigitChars 10 ds 0

/-- The pieces of a replacement. -/
inductive ReadAs (groups : Nat) : List Char → List Piece → Prop
  | nil : ReadAs groups [] []
  | escaped {c : Char} {rest : List Char} {ps : List Piece} (hrest : ReadAs groups rest ps) :
      ReadAs groups ('\\' :: c :: rest) (.literal c :: ps)
  | lastBackslash : ReadAs groups ['\\'] [.literal '\\']
  /-- The digits after the first one belong to the number as long as it is at most `groups`.  It
  only grows, so the bound on all of it is the one on every part. -/
  | number {d : Char} {ds rest : List Char} {ps : List Piece}
      (hdigits : ∀ c ∈ d :: ds, c.isDigit = true) (hgroups : ds = [] ∨ numberOf (d :: ds) ≤ groups)
      (hstop : ∀ c, rest.head? = some c → c.isDigit = true → groups < numberOf (d :: ds ++ [c]))
      (hrest : ReadAs groups rest ps) :
      ReadAs groups ('$' :: d :: ds ++ rest) (.group (numberOf (d :: ds)) :: ps)
  | braces {name rest : List Char} {ps : List Piece} (hname : '\x7d' ∉ name)
      (hrest : ReadAs groups rest ps) :
      ReadAs groups ('$' :: '\x7b' :: name ++ '\x7d' :: rest) (.reference name :: ps)
  | dollar {rest : List Char} {ps : List Piece}
      (hnext : ∀ c, rest.head? = some c → c.isDigit = false ∧ c ≠ '\x7b')
      (hrest : ReadAs groups rest ps) : ReadAs groups ('$' :: rest) (.literal '$' :: ps)
  | other {c : Char} {rest : List Char} {ps : List Piece} (hdollar : c ≠ '$')
      (hbackslash : c ≠ '\\') (hrest : ReadAs groups rest ps) :
      ReadAs groups (c :: rest) (.literal c :: ps)

/-- Every brace behind a dollar sign is closed somewhere after it. -/
def Closed (cs : List Char) : Prop :=
  ∀ front rest, cs = front ++ '$' :: '\x7b' :: rest → '\x7d' ∈ rest

theorem Closed.of_append {front : List Char} (h : Closed (front ++ cs)) : Closed cs := by
  rintro before rest rfl
  exact h (front ++ before) rest (List.append_assoc ..).symm

instance (cs : List Char) : Decidable (Closed cs) :=
  decidable_of_iff (∀ t ∈ cs.tails, ['$', '\x7b'] <+: t → '\x7d' ∈ t.drop 2) <| by
    constructor
    · rintro h front rest rfl
      exact h _ ((List.mem_tails _ _).mpr (List.suffix_append front _)) ⟨rest, rfl⟩
    · rintro h t ht ⟨rest, rfl⟩
      obtain ⟨front, rfl⟩ := (List.mem_tails _ _).mp ht
      exact h front rest rfl

/-! ## Numbers -/

theorem le_ofDigitChars (ds : List Char) (n : Nat) : n ≤ Nat.ofDigitChars 10 ds n := by
  induction ds generalizing n with
  | nil => exact Nat.le_refl n
  | cons d ds ih =>
    rw [Nat.ofDigitChars_cons]
    have hrest := ih (10 * n + (d.toNat - '0'.toNat))
    omega

theorem groupNumber_digit (hd : d.isDigit = true) :
    groupNumber groups n (d :: rest) =
      if Nat.ofDigitChars 10 [d] n ≤ groups then groupNumber groups (Nat.ofDigitChars 10 [d] n) rest
      else (n, d :: rest) := by
  rw [groupNumber, Text.digit?_of_isDigit hd, Nat.ofDigitChars_cons, Nat.ofDigitChars_nil,
    Nat.mul_comm 10 n]
  rfl

theorem groupNumber_stop (hstop : ∀ c, rest.head? = some c → c.isDigit = true →
    groups < Nat.ofDigitChars 10 [c] n) : groupNumber groups n rest = (n, rest) := by
  cases rest with
  | nil => rfl
  | cons c rest =>
    by_cases hc : c.isDigit = true
    · rw [groupNumber_digit hc, if_neg (Nat.not_le.mpr (hstop c rfl hc))]
    · rw [groupNumber, Text.digit?_of_not_isDigit (Bool.eq_false_iff.mpr hc)]

/-- A number goes on through the digits that keep it at most `groups`. -/
theorem groupNumber_append (hds : ∀ c ∈ ds, c.isDigit = true)
    (hgroups : ds = [] ∨ Nat.ofDigitChars 10 ds n ≤ groups)
    (hstop : ∀ c, rest.head? = some c → c.isDigit = true →
      groups < Nat.ofDigitChars 10 (ds ++ [c]) n) :
    groupNumber groups n (ds ++ rest) = (Nat.ofDigitChars 10 ds n, rest) := by
  induction ds generalizing n with
  | nil => exact groupNumber_stop hstop
  | cons d ds ih =>
    obtain ⟨hd, hds⟩ := List.forall_mem_cons.mp hds
    have hall : Nat.ofDigitChars 10 ds (Nat.ofDigitChars 10 [d] n) ≤ groups :=
      hgroups.resolve_left (List.cons_ne_nil d ds)
    have hfirst := Nat.le_trans (le_ofDigitChars ds _) hall
    rw [List.cons_append, groupNumber_digit hd, if_pos hfirst]
    exact ih hds (.inr hall) hstop

/-- Digits can be taken off a text until the number would be too large. -/
theorem exists_digits (groups n : Nat) (cs : List Char) : ∃ ds rest, cs = ds ++ rest ∧
    (∀ c ∈ ds, c.isDigit = true) ∧ (ds = [] ∨ Nat.ofDigitChars 10 ds n ≤ groups) ∧
    ∀ c, rest.head? = some c → c.isDigit = true → groups < Nat.ofDigitChars 10 (ds ++ [c]) n := by
  induction cs generalizing n with
  | nil => exact ⟨[], [], rfl, by simp, .inl rfl, by simp⟩
  | cons c cs ih =>
    by_cases hc : c.isDigit = true ∧ Nat.ofDigitChars 10 [c] n ≤ groups
    · obtain ⟨ds, rest, rfl, hds, hgroups, hstop⟩ := ih (Nat.ofDigitChars 10 [c] n)
      refine ⟨c :: ds, rest, rfl, List.forall_mem_cons.mpr ⟨hc.1, hds⟩, .inr ?_, hstop⟩
      rcases hgroups with rfl | hgroups
      · exact hc.2
      · exact hgroups
    · refine ⟨[], c :: cs, rfl, by simp, .inl rfl, fun d hd hdigit => ?_⟩
      obtain rfl := Option.some.inj hd
      exact Nat.not_le.mp fun hle => hc ⟨hdigit, hle⟩

/-! ## Templates -/

theorem toTemplate_escaped (c : Char) (rest : List Char) : toTemplate groups ('\\' :: c :: rest) =
    (if c = '$' then ['$', '$'] else [c]) ++ toTemplate groups rest := by
  split
  · rename_i hc
    rw [hc, toTemplate.eq_3]
    rfl
  · rename_i hc
    rw [toTemplate.eq_4 _ _ _ hc]
    rfl

theorem throughBrace_append (hname : '\x7d' ∉ name) (rest : List Char) :
    throughBrace (name ++ '\x7d' :: rest) = (name ++ ['\x7d'], rest) := by
  induction name with
  | nil => rfl
  | cons c name ih =>
    obtain ⟨hc, hname⟩ : '\x7d' ≠ c ∧ '\x7d' ∉ name := by simpa using hname
    rw [List.cons_append, throughBrace.eq_3 _ _ fun h => hc h.symm, ih hname]
    rfl

theorem toTemplate_braces (hname : '\x7d' ∉ name) (rest : List Char) :
    toTemplate groups ('$' :: '\x7b' :: name ++ '\x7d' :: rest) =
      '$' :: '\x7b' :: name ++ '\x7d' :: toTemplate groups rest := by
  have htext : '$' :: '\x7b' :: name ++ '\x7d' :: rest =
      '$' :: '\x7b' :: (name ++ '\x7d' :: rest) := rfl
  rw [htext, toTemplate.eq_5, throughBrace_append hname]
  simp

theorem toTemplate_number (hdigits : ∀ c ∈ d :: ds, c.isDigit = true)
    (hgroups : ds = [] ∨ numberOf (d :: ds) ≤ groups)
    (hstop : ∀ c, rest.head? = some c → c.isDigit = true → groups < numberOf (d :: ds ++ [c])) :
    toTemplate groups ('$' :: d :: ds ++ rest) =
      '$' :: '\x7b' :: Nat.toDigits 10 (numberOf (d :: ds)) ++ '\x7d' :: toTemplate groups rest := by
  obtain ⟨hd, hds⟩ := List.forall_mem_cons.mp hdigits
  have hnumber : groupNumber groups (d.toNat - 48) (ds ++ rest) = (numberOf (d :: ds), rest) := by
    have hfirst : Nat.ofDigitChars 10 [d] 0 = d.toNat - 48 := by simp [Nat.ofDigitChars_cons]
    rw [← hfirst]
    exact groupNumber_append hds hgroups hstop
  have hbrace : d ≠ '\x7b' := by
    rintro rfl
    exact absurd hd (by decide)
  have htext : '$' :: d :: ds ++ rest = '$' :: (d :: (ds ++ rest)) := rfl
  rw [htext, toTemplate.eq_6 _ _ fun _ h => hbrace (List.cons.inj h).1]
  simp only [List.head?_cons, Option.bind_some, Text.digit?_of_isDigit hd, List.tail_cons, hnumber]

theorem toTemplate_dollar (hnext : ∀ c, rest.head? = some c → c.isDigit = false ∧ c ≠ '\x7b') :
    toTemplate groups ('$' :: rest) = '$' :: '$' :: toTemplate groups rest := by
  have hdigit : rest.head?.bind Text.digit? = none := by
    rw [Option.bind_eq_none_iff]
    exact fun c hc => Text.digit?_of_not_isDigit (hnext c hc).1
  rw [toTemplate.eq_6, hdigit]
  rintro after rfl
  exact (hnext '\x7b' rfl).2 rfl

theorem toTemplate_other (hdollar : c ≠ '$') (hbackslash : c ≠ '\\') (rest : List Char) :
    toTemplate groups (c :: rest) = c :: toTemplate groups rest :=
  toTemplate.eq_7 groups c rest (fun h => absurd h hbackslash) (fun _ h => absurd h hbackslash)
    (fun _ _ h => absurd h hbackslash) (fun _ h => absurd h hdollar) hdollar

/-! ## Expanding -/

theorem expand_other (hdollar : c ≠ '$') (rest : List Char) :
    expand g (c :: rest) = c :: expand g rest :=
  expand.eq_5 g c rest (fun _ h => absurd h hdollar) (fun _ h => absurd h hdollar) hdollar

theorem expand_braces (hname : '\x7d' ∉ name) (rest : List Char) :
    expand g ('$' :: '\x7b' :: name ++ '\x7d' :: rest) =
      Groups.resolve g name ++ expand g rest := by
  have htext : '$' :: '\x7b' :: name ++ '\x7d' :: rest =
      '$' :: '\x7b' :: (name ++ '\x7d' :: rest) := rfl
  rw [htext, expand.eq_3]
  split
  · rename_i hdrop
    rw [Text.dropWhile_append hname] at hdrop
    exact absurd hdrop (List.cons_ne_nil _ _)
  · rename_i head after hdrop
    rw [Text.dropWhile_append hname] at hdrop
    obtain ⟨-, rfl⟩ := List.cons.inj hdrop
    rw [Text.takeWhile_append hname]

/-- A number of sixty-four bits stands for the group of that number. -/
theorem resolve_toDigits (hn : n ≤ 0xFFFFFFFFFFFFFFFF) :
    Groups.resolve g (Nat.toDigits 10 n) = (g.text? n).getD [] := by
  have hname : String.ofList (Nat.toDigits 10 n) = n.repr := by
    rw [← Nat.toList_repr, String.ofList_toList]
  rw [Groups.resolve, hname, Text.decimal?_repr hn]
  rfl

theorem expand_number (hn : n ≤ 0xFFFFFFFFFFFFFFFF) (rest : List Char) :
    expand g ('$' :: '\x7b' :: Nat.toDigits 10 n ++ '\x7d' :: rest) =
      (g.text? n).getD [] ++ expand g rest := by
  have hname : '\x7d' ∉ Nat.toDigits 10 n := fun h =>
    absurd (Text.isDigit_of_mem_toDigits _ h) (by decide)
  rw [expand_braces hname, resolve_toDigits hn]

theorem numberOf_le (hdigits : ∀ c ∈ d :: ds, c.isDigit = true)
    (hbound : groups ≤ 0xFFFFFFFFFFFFFFFF) (hgroups : ds = [] ∨ numberOf (d :: ds) ≤ groups) :
    numberOf (d :: ds) ≤ 0xFFFFFFFFFFFFFFFF := by
  rcases hgroups with rfl | hle
  · have hd := hdigits d List.mem_cons_self
    simp only [Char.isDigit, Bool.and_eq_true, decide_eq_true_eq] at hd
    have hhigh : d.toNat ≤ 57 := UInt32.le_iff_toNat_le.mp hd.2
    simp only [numberOf, Nat.ofDigitChars_cons, Nat.ofDigitChars_nil]
    omega
  · exact Nat.le_trans hle hbound

/-- Expanding the template of a replacement gives what its pieces give. -/
theorem ReadAs.expand_toTemplate (h : ReadAs groups cs ps) (hbound : groups ≤ 0xFFFFFFFFFFFFFFFF)
    (g : Groups) : expand g (toTemplate groups cs) = ps.flatMap (Piece.text g) := by
  -- No dollar sign is left alone in a template, so each piece is read from its own part of it.
  induction h with
  | nil => rw [toTemplate.eq_1, expand.eq_1, List.flatMap_nil]
  | lastBackslash =>
    rw [toTemplate.eq_2, expand_other (by decide), expand.eq_1]
    rfl
  | @escaped c rest ps _ ih =>
    rw [toTemplate_escaped, List.flatMap_cons, ← ih]
    split
    · rename_i hc
      rw [hc]
      exact expand.eq_2 g _
    · rename_i hc
      exact expand_other hc _
  | number hdigits hgroups hstop _ ih =>
    rw [toTemplate_number hdigits hgroups hstop, expand_number (numberOf_le hdigits hbound hgroups),
      ih, List.flatMap_cons]
    rfl
  | braces hname _ ih =>
    rw [toTemplate_braces hname, expand_braces hname, ih, List.flatMap_cons]
    rfl
  | dollar hnext _ ih =>
    rw [toTemplate_dollar hnext, expand.eq_2, ih, List.flatMap_cons]
    rfl
  | other hdollar hbackslash _ ih =>
    rw [toTemplate_other hdollar hbackslash, expand_other hdollar, ih, List.flatMap_cons]
    rfl

/-! ## Every replacement is read -/

/-- A piece can be taken off the front of a replacement. -/
theorem exists_piece (groups : Nat) (h : Closed (c :: cs)) : ∃ p front rest, cs = front ++ rest ∧
    ∀ ps, ReadAs groups rest ps → ReadAs groups (c :: cs) (p :: ps) := by
  by_cases hbackslash : c = '\\'
  · subst hbackslash
    cases cs with
    | nil =>
      refine ⟨.literal '\\', [], [], rfl, fun ps hps => ?_⟩
      cases hps
      exact .lastBackslash
    | cons c rest => exact ⟨.literal c, [c], rest, rfl, fun _ => .escaped⟩
  by_cases hdollar : c = '$'
  · subst hdollar
    cases cs with
    | nil => exact ⟨.literal '$', [], [], rfl, fun _ => .dollar (by simp)⟩
    | cons d tail =>
      by_cases hdigit : d.isDigit = true
      · obtain ⟨ds, rest, rfl, hds, hgroups, hstop⟩ := exists_digits groups (numberOf [d]) tail
        have hdigits : ∀ c ∈ d :: ds, c.isDigit = true := List.forall_mem_cons.mpr ⟨hdigit, hds⟩
        exact ⟨.group (numberOf (d :: ds)), d :: ds, rest, rfl,
          fun _ => .number hdigits hgroups hstop⟩
      by_cases hbrace : d = '\x7b'
      · subst hbrace
        obtain ⟨name, rest, rfl, hname⟩ := List.eq_append_cons_of_mem (h [] tail rfl)
        exact ⟨.reference name, '\x7b' :: name ++ ['\x7d'], rest, by simp, fun _ => .braces hname⟩
      · refine ⟨.literal '$', [], d :: tail, rfl, fun _ => .dollar fun c hc => ?_⟩
        obtain rfl := Option.some.inj hc
        exact ⟨Bool.eq_false_iff.mpr hdigit, hbrace⟩
  · exact ⟨.literal c, [], cs, rfl, fun _ => .other hdollar hbackslash⟩

theorem exists_readAs (groups : Nat) (h : Closed cs) : ∃ ps, ReadAs groups cs ps := by
  induction hlength : cs.length using Nat.strongRecOn generalizing cs with
  | ind length ih =>
    cases cs with
    | nil => exact ⟨[], .nil⟩
    | cons c cs =>
      obtain ⟨p, front, rest, rfl, hp⟩ := exists_piece groups h
      have hshorter : rest.length < length := by
        rw [List.length_cons, List.length_append] at hlength
        omega
      have hrest : Closed rest := Closed.of_append (show Closed ((c :: front) ++ rest) from h)
      obtain ⟨ps, hps⟩ := ih rest.length hshorter hrest rfl
      exact ⟨p :: ps, hp ps hps⟩

theorem literals_sublist (g : Groups) (ps : List Piece) :
    (ps.filterMap Piece.literal?).Sublist (ps.flatMap (Piece.text g)) := by
  induction ps with
  | nil => exact List.Sublist.refl []
  | cons p ps ih =>
    cases p with
    | literal c => exact ih.cons_cons c
    | group _ => exact ih.trans (List.sublist_append_right _ _)
    | reference _ => exact ih.trans (List.sublist_append_right _ _)

/-- A replacement whose braces are closed can be read in pieces, and for every match the expanded
template is what they give, in order, so its literal characters all stay.  This is what a rule puts
in the place of the match. -/
theorem expand_readAs {groups : Nat} {cs : List Char} (hbound : groups ≤ 0xFFFFFFFFFFFFFFFF)
    (hclosed : Closed cs) :
    (∃ ps, ReadAs groups cs ps) ∧ ∀ ps, ReadAs groups cs ps →
      (∀ g : Groups, expand g (toTemplate groups cs) = ps.flatMap (Piece.text g) ∧
        (ps.filterMap Piece.literal?).Sublist (expand g (toTemplate groups cs))) ∧
      ∀ (p : Pattern) (name : List Char) (f : Pattern.Found), p.groups = groups →
        (Action.replace (String.ofList cs)).result p name f =
          ps.flatMap (Piece.text (p.groupsOf name f)) := by
  refine ⟨exists_readAs groups hclosed, fun ps hps => ⟨fun g => ?_, ?_⟩⟩
  · have htemplate := hps.expand_toTemplate hbound g
    refine ⟨htemplate, ?_⟩
    rw [htemplate]
    exact literals_sublist g ps
  · rintro p name f rfl
    rw [Action.result, String.toList_ofList]
    exact hps.expand_toTemplate hbound _

/-! ### A plural -/

namespace Plural

/-- There is one group, so the number ends in front of the `2`. -/
def text : List Char := "\\$$12$\x7bhead\x7ds$$x\\".toList

def pieces : List Piece :=
  [.literal '$', .group 1, .literal '2', .reference "head".toList, .literal 's', .literal '$',
    .literal '$', .literal 'x', .literal '\\']

def pattern : Pattern :=
  (Pattern.Engine.standard.compile "^(?P<head>Vec)").toOption.get (by decide +kernel)

def subject : List Char := "Vec3".toList

def found : Pattern.Found := (pattern.find? subject).get (by decide +kernel)

theorem readAs : ReadAs 1 text pieces := by
  have hdigit : ∀ c ∈ ['1'], c.isDigit = true := List.forall_mem_singleton.mpr rfl
  refine .escaped (@ReadAs.number 1 '1' [] _ _ hdigit (.inl rfl) ?_ ?_)
  · intro c hc _
    obtain rfl := Option.some.inj hc
    decide
  refine .other (by decide) (by decide) (@ReadAs.braces 1 "head".toList _ _ (by decide) ?_)
  refine .other (by decide) (by decide) (.dollar ?_ (.dollar ?_ ?_))
  · intro c hc
    obtain rfl := Option.some.inj hc
    decide
  · intro c hc
    obtain rfl := Option.some.inj hc
    decide
  · exact .other (by decide) (by decide) .lastBackslash

end Plural

theorem expand_readAs_plural :
    1 ≤ 0xFFFFFFFFFFFFFFFF ∧ Closed Plural.text ∧ ReadAs 1 Plural.text Plural.pieces ∧
      Plural.pattern.groups = 1 ∧
      (Action.replace (String.ofList Plural.text)).result Plural.pattern Plural.subject
        Plural.found = "$Vec2Vecs$$x\\".toList := by
  have hclosed : Closed Plural.text := by decide +kernel
  have hgroups : Plural.pattern.groups = 1 := by decide +kernel
  have hread := (expand_readAs (by decide) hclosed).2 _ Plural.readAs
  refine ⟨by decide, hclosed, Plural.readAs, hgroups, ?_⟩
  rw [hread.2 Plural.pattern Plural.subject Plural.found hgroups]
  decide +kernel

end Replacement
end ClassRelabel
