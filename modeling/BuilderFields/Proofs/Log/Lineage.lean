import BuilderFields.Log.Filter
import Mathlib.Data.List.Basic
import Mathlib.Data.List.Infix

/-!
# Modules and what encloses them

A module is enclosed by itself, by every module that its name goes on from with a dot, and by the empty name. These
are exactly the names on its lineage, where longer ones come before shorter ones.
-/

namespace BuilderFields

namespace Text

variable {separator : Char}

theorem splitOnChar_append_cons (as bs : List Char) :
    splitOnChar separator (as ++ separator :: bs) = splitOnChar separator as ++ splitOnChar separator bs := by
  induction as with
  | nil => simp [splitOnChar]
  | cons a as ih =>
      by_cases ha : a = separator
      · simp [splitOnChar, ha, ih]
      · rw [List.cons_append, splitOnChar, splitOnChar, if_neg ha, if_neg ha, ih]
        cases hsplit : splitOnChar separator as with
        | nil => exact absurd hsplit (splitOnChar_ne_nil separator as)
        | cons piece pieces => rfl

theorem intercalate_append {as bs : List (List Char)} (has : as ≠ []) (hbs : bs ≠ []) :
    [separator].intercalate (as ++ bs) = [separator].intercalate as ++ separator :: [separator].intercalate bs := by
  induction as with
  | nil => exact absurd rfl has
  | cons a as ih =>
      cases as with
      | nil =>
          obtain ⟨b, bs, rfl⟩ := List.exists_cons_of_ne_nil hbs
          rw [List.singleton_append, List.intercalate_cons_cons, List.intercalate_singleton,
            List.append_assoc, List.singleton_append]
      | cons a' as =>
          rw [List.cons_append, List.cons_append, List.intercalate_cons_cons, ← List.cons_append,
            ih (List.cons_ne_nil a' as), List.intercalate_cons_cons]
          simp only [List.append_assoc]

end Text

namespace LogFilter

variable {name other module : String}

/-- The module itself, one that its name goes on from with a dot, or the empty name. -/
def Encloses (name module : String) : Prop :=
  name = module ∨ (name.toList ++ ['.']) <+: module.toList ∨ name = ""

theorem Encloses.isPrefix (h : Encloses name module) : name.toList <+: module.toList := by
  rcases h with rfl | hdot | rfl
  · exact List.prefix_refl _
  · exact (List.prefix_append name.toList ['.']).trans hdot
  · rw [String.toList_empty]
    exact List.nil_prefix

/-- Of the enclosing names there is only one of each length. -/
theorem Encloses.eq_of_length_eq (h : Encloses name module) (hother : Encloses other module)
    (hlength : name.length = other.length) : name = other := by
  rw [← String.length_toList, ← String.length_toList] at hlength
  have hstart := List.prefix_of_prefix_length_le h.isPrefix hother.isPrefix hlength.le
  exact String.toList_injective (hstart.eq_of_length hlength)

def ancestor (module : String) (count : Nat) : String :=
  String.ofList (['.'].intercalate ((Text.splitOnChar '.' module.toList).take count))

/-- The lineage of a module shortens it piece by piece, down to the empty name. -/
theorem lineage_eq_map (module : String) :
    lineage module =
      (List.range ((Text.splitOnChar '.' module.toList).length + 1)).reverse.map (ancestor module) :=
  rfl

theorem ancestor_length (module : String) :
    ancestor module (Text.splitOnChar '.' module.toList).length = module := by
  rw [ancestor, List.take_length, Text.intercalate_splitOnChar, String.ofList_toList]

theorem toList_ancestor_append {count : Nat} (hpos : 0 < count)
    (hlt : count < (Text.splitOnChar '.' module.toList).length) :
    (ancestor module count).toList ++ ['.'] <+: module.toList := by
  have htake : (Text.splitOnChar '.' module.toList).take count ≠ [] := by
    rw [← List.length_pos_iff, List.length_take]
    omega
  have hdrop : (Text.splitOnChar '.' module.toList).drop count ≠ [] := by
    rw [← List.length_pos_iff, List.length_drop]
    omega
  have hmodule : ['.'].intercalate (_ ++ _) = _ := Text.intercalate_append htake hdrop
  rw [List.take_append_drop, Text.intercalate_splitOnChar] at hmodule
  refine ⟨['.'].intercalate ((Text.splitOnChar '.' module.toList).drop count), ?_⟩
  rw [ancestor, String.toList_ofList, List.append_assoc, List.singleton_append]
  exact hmodule.symm

/-- The lineage consists of the names that enclose the module. -/
theorem mem_lineage_iff : name ∈ lineage module ↔ Encloses name module := by
  simp only [lineage_eq_map, List.mem_map, List.mem_reverse, List.mem_range, Nat.lt_succ_iff]
  constructor
  · rintro ⟨count, hcount, rfl⟩
    rcases Nat.eq_zero_or_pos count with rfl | hpos
    · exact Or.inr (Or.inr rfl)
    · rcases Nat.lt_or_eq_of_le hcount with hlt | rfl
      · exact Or.inr (Or.inl (toList_ancestor_append hpos hlt))
      · exact Or.inl (ancestor_length module)
  · rintro (rfl | ⟨rest, hrest⟩ | rfl)
    · exact ⟨_, Nat.le_refl _, ancestor_length name⟩
    · rw [List.append_assoc, List.singleton_append] at hrest
      refine ⟨(Text.splitOnChar '.' name.toList).length, ?_, ?_⟩
      · rw [← hrest, Text.splitOnChar_append_cons, List.length_append]
        exact Nat.le_add_right _ _
      · rw [ancestor, ← hrest, Text.splitOnChar_append_cons, List.take_left,
          Text.intercalate_splitOnChar, String.ofList_toList]
    · exact ⟨0, Nat.zero_le _, rfl⟩

/-- Fewer pieces of a module name are no longer than more of them. -/
theorem length_ancestor_le {count more : Nat} (h : count ≤ more) :
    (ancestor module count).length ≤ (ancestor module more).length := by
  simp only [ancestor, String.length_ofList]
  obtain ⟨extra, rfl⟩ := Nat.exists_eq_add_of_le h
  rw [List.take_add]
  by_cases hfirst : (Text.splitOnChar '.' module.toList).take count = []
  · simp [hfirst]
  by_cases hrest : ((Text.splitOnChar '.' module.toList).drop count).take extra = []
  · simp [hrest]
  · rw [Text.intercalate_append hfirst hrest, List.length_append]
    exact Nat.le_add_right _ _

/-- On the lineage of a module no name is longer than one before it. -/
theorem pairwise_lineage (module : String) :
    (lineage module).Pairwise fun nearer farther => farther.length ≤ nearer.length := by
  rw [lineage_eq_map, List.pairwise_map, List.pairwise_reverse]
  exact List.pairwise_lt_range.imp fun hlt => length_ancestor_le hlt.le

end LogFilter

end BuilderFields
