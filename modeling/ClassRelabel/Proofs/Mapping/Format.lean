/-
Mapping files are read back in every format.

The formats write the same facts down in their own ways, and each reader tells what its format has:
all of it, all but the parameters, or all but these and the descriptors of fields.
-/
import ClassRelabel.Mapping.Format
import ClassRelabel.Proofs.Mapping.Srg
import ClassRelabel.Proofs.Mapping.Tsrg2

namespace ClassRelabel
namespace Mapping

open Text

/-- Mappings that can be spelled are read back from every file that writes them down, with free text
where the format has room for it, in every layout.  A file with namespaces gives all of them.  Flat
records in any order give them without parameters, and members under their class give them without
descriptors of fields too.  There are such files in every format. -/
theorem read_of_rendering {m : Mappings} (hm : m.Spellable) :
    (∀ l, m.Listed l →
      (∀ (namespaces : List String) (rs : List (List Char)) (text : String),
        2 ≤ namespaces.length → (∀ w ∈ namespaces, IsName w) →
        Tsrg2.Rendering namespaces.length none l rs →
        Layout (spaced "" ("tsrg2" :: namespaces) :: rs) text.toList →
        read .tsrg2 text = .ok m) ∧
      (∀ (rs : List (List Char)) (text : String), Srg.Rendering l rs → Layout rs text.toList →
        read .srg text = .ok m.withoutParameters) ∧
      ∀ (rs : List (List Char)) (text : String), Tsrg.Rendering none l rs →
        Layout rs text.toList → read .tsrg text = .ok m.withoutParameters.withoutDescriptors) ∧
    (∀ rs, Layout rs (rs.flatMap fun r => r ++ ['\n'])) ∧ (∀ l, ∃ rs, Srg.Rendering l rs) ∧
    ∃ l, m.Listed l ∧ (∃ rs, Tsrg.Rendering none l rs) ∧
      ∀ n, 2 ≤ n → ∃ rs, Tsrg2.Rendering n none l rs := by
  refine ⟨fun l hl => ⟨fun namespaces rs text hn hnames h hlayout => ?_,
    fun rs text h hlayout => ?_, fun rs text h hlayout => ?_⟩, layout_lines,
    Srg.exists_rendering, ?_⟩
  · exact h.read_eq hnames hn hm hl hlayout
  · exact h.read_eq hm hl hlayout
  · exact h.read_eq hm hl hlayout
  · have hgrouped := Mappings.grouped_facts hm.named
    exact ⟨m.facts, m.listed_facts, Tsrg.exists_rendering hgrouped,
      fun n hn => Tsrg2.exists_rendering hn hgrouped⟩

/-! ## A class with a field and a static method -/

namespace Sample

def key : MethodKey := ⟨"d", "(JI)V"⟩

def entry : MethodEntry := ⟨"accept", {(0, "first"), (2, "second")}⟩

def facts : List Fact :=
  [.className "a" "net/Foo", .field "a" "b" ⟨"count", some "I"⟩, .method "a" key entry]

def mappings : Mappings := facts.foldl Mappings.tell .empty

def namespaces : List String := ["obf", "srg", "id"]

def lines : List (List Char) :=
  [spaced "" ["a", "net/Foo", "1"], spaced "\t" ["b", "I", "count", "2"],
    spaced "\t" ["d", "(JI)V", "accept", "3"], spaced "\t\t" ["static"],
    spaced "\t\t" ["2", "o", "second", "4"], spaced "\t\t" ["0", "o", "first", "5"]]

/-- There are a comment, a blank line and blanks behind lines. -/
def text : String :=
  "tsrg2 obf srg id\t\n  # names\na net/Foo 1\r\n\n\tb I count 2\n\td (JI)V accept 3 \n" ++
    "\t\tstatic\n\t\t2 o second 4\n\t\t0 o first 5"

theorem listed : mappings.Listed facts := Mappings.listed_foldl_tell (by decide)

theorem lists_entry : entry.Lists [(2, "second"), (0, "first")] := by
  refine ⟨by decide, fun ⟨slot, new⟩ => ?_⟩
  have hparameters : entry.parameters[slot]? =
      if 0 = slot then some "first" else if 2 = slot then some "second" else none := by
    simp [entry, Std.ExtTreeMap.getElem?_insert]
  rw [hparameters]
  by_cases hfirst : 0 = slot
  · simp [← hfirst, eq_comm]
  · by_cases hsecond : 2 = slot
    · simp [← hsecond, eq_comm]
    · simp [hsecond, hfirst, Ne.symm hsecond, Ne.symm hfirst]

theorem spellable : mappings.Spellable := by
  constructor
  · intro owner e hclass
    have hknown : (mappings.class? owner).isSome := by rw [hclass, Option.isSome_some]
    obtain ⟨f, hf, rfl⟩ := (Mappings.isSome_class?_foldl_tell.mp hknown).resolve_right
      (by simp [Mappings.class?, Mappings.empty])
    have howner : ∀ f ∈ facts, f.owner = "a" := by decide
    obtain ⟨e', hclass', hnew⟩ := (listed.2 (.className "a" "net/Foo")).mp (by decide)
    rw [howner f hf] at hclass
    rw [Option.some.inj (hclass.symm.trans hclass')]
    exact ⟨_, hnew⟩
  · intro f hf
    have hmem : f ∈ facts := (listed.2 f).mpr hf
    simp only [facts, List.mem_cons, List.not_mem_nil, or_false] at hmem
    rcases hmem with rfl | rfl | rfl
    · exact ⟨by decide, by decide, by decide, by decide⟩
    · refine ⟨by decide, by decide, by decide, fun d hd => ?_⟩
      obtain rfl := Option.some.inj hd
      exact ⟨by decide, by decide⟩
    · refine ⟨by decide, by decide, by decide, by decide, by decide, fun slot p hp => ?_⟩
      have hmem := (lists_entry.2 (slot, p)).mpr hp
      simp only [List.mem_cons, Prod.mk.injEq, List.not_mem_nil, or_false] at hmem
      rcases hmem with ⟨-, rfl⟩ | ⟨-, rfl⟩ <;> decide

theorem rendering : Tsrg2.Rendering 3 none facts lines := by
  have hother : ∀ {w : String}, IsName w → ∀ v ∈ [w], IsName v := fun hw v hv => by
    rwa [List.mem_singleton.mp hv]
  have hslots : Tsrg2.Slots 3 [(2, "second"), (0, "first")]
      [spaced "\t\t" ["static"], spaced "\t\t" [(2 : UInt16).toNat.repr, "o", "second", "4"],
        spaced "\t\t" [(0 : UInt16).toNat.repr, "o", "first", "5"]] :=
    .static (.parameter (by decide) (hother (by decide : IsName "4")) rfl
      (.parameter (by decide) (hother (by decide : IsName "5")) rfl .nil))
  exact .record (.className (hother (by decide : IsName "1")) rfl)
    (.record (.typedField (hother (by decide : IsName "2")) rfl)
      (.record (.method (hother (by decide : IsName "3")) rfl lists_entry hslots) .nil))

theorem layout : Layout (spaced "" ("tsrg2" :: namespaces) :: lines) text.toList := by
  have htext : text.toList =
      spaced "" ("tsrg2" :: namespaces) ++ ['\t'] ++ '\n' ::
      ([' ', ' '] ++ '#' :: " names".toList ++ '\n' ::
      (spaced "" ["a", "net/Foo", "1"] ++ ['\r'] ++ '\n' ::
      ([] ++ '\n' ::
      (spaced "\t" ["b", "I", "count", "2"] ++ [] ++ '\n' ::
      (spaced "\t" ["d", "(JI)V", "accept", "3"] ++ [' '] ++ '\n' ::
      (spaced "\t\t" ["static"] ++ [] ++ '\n' ::
      (spaced "\t\t" ["2", "o", "second", "4"] ++ [] ++ '\n' ::
      (spaced "\t\t" ["0", "o", "first", "5"] ++ [])))))))) := by decide +kernel
  have hsilent : Silent ([' ', ' '] ++ '#' :: " names".toList) := .comment (by decide)
  have hblank : Silent [] := .blank (by decide)
  rw [htext]
  refine .record (by decide) (by decide) (.silent hsilent (by decide) (.record (by decide)
    (by decide) (.silent hblank (by decide) ?_)))
  refine .record (by decide) (by decide) (.record (by decide) (by decide) (.record (by decide)
    (by decide) (.record (by decide) (by decide) (.lastRecord (by decide) (by decide)))))

end Sample

theorem read_of_rendering_sample :
    Sample.mappings.Spellable ∧ read .tsrg2 Sample.text = .ok Sample.mappings := by
  refine ⟨Sample.spellable, ?_⟩
  obtain ⟨hread, -⟩ := read_of_rendering Sample.spellable
  exact (hread Sample.facts Sample.listed).1 Sample.namespaces Sample.lines Sample.text (by decide)
    (by decide) Sample.rendering Sample.layout

end Mapping
end ClassRelabel
