import Agentry.Json.Canonical
import Agentry.Proofs.Json.Printer
/-!
# Canonical values

Sorting puts the members of every object in another order, which does not change what is found under
a name as long as no name comes twice. So the members of an object are known, up to their own order
within, from its sorted form.
-/
namespace Agentry.Json.Value

/-! ## Looking up a sorted object -/

theorem member?_eq_some_iff {members : List (String × Value)} (h : (members.map (·.1)).Nodup)
    {name : String} {value : Value} :
    member? name members = some value ↔ (name, value) ∈ members := by
  induction members with
  | nil => simp [member?]
  | cons head rest ih =>
    obtain ⟨n, v⟩ := head
    obtain ⟨hn, hrest⟩ : n ∉ rest.map (·.1) ∧ (rest.map (·.1)).Nodup := List.nodup_cons.mp h
    rw [member?]
    split
    · rename_i heq
      subst heq
      constructor
      · intro hv
        rw [Option.some.inj hv]
        exact List.mem_cons_self
      · intro hmem
        rcases List.mem_cons.mp hmem with hmem | hmem
        · rw [(Prod.mk.inj hmem).2]
        · exact absurd (List.mem_map_of_mem hmem) hn
    · rename_i hne
      rw [ih hrest, List.mem_cons]
      constructor
      · exact Or.inr
      · rintro (hmem | hmem)
        · exact absurd (Prod.mk.inj hmem).1.symm hne
        · exact hmem

theorem member?_perm {members others : List (String × Value)} (hperm : members.Perm others)
    (h : (members.map (·.1)).Nodup) (name : String) :
    member? name members = member? name others := by
  have hothers : (others.map (·.1)).Nodup := (hperm.map _).nodup_iff.mp h
  apply Option.ext
  intro value
  rw [member?_eq_some_iff h, member?_eq_some_iff hothers]
  exact hperm.mem_iff

theorem names_sortedMembers (members : List (String × Value)) :
    (sortedMembers members).map (·.1) = members.map (·.1) := by
  induction members with
  | nil => rfl
  | cons head rest ih =>
    obtain ⟨n, v⟩ := head
    simp [sortedMembers, ih]

theorem member?_sortedMembers (members : List (String × Value)) (name : String) :
    member? name (sortedMembers members) = (member? name members).map sorted := by
  induction members with
  | nil => rfl
  | cons head rest ih =>
    obtain ⟨n, v⟩ := head
    simp only [sortedMembers, member?]
    split
    · rfl
    · exact ih

theorem get?_sorted {members : List (String × Value)} (h : (members.map (·.1)).Nodup)
    (name : String) : get? name (sorted (.object members)) = (member? name members).map sorted := by
  have hperm := List.mergeSort_perm (sortedMembers members) nameLe
  rw [sorted, get?, ← member?_sortedMembers]
  apply member?_perm hperm
  rw [(hperm.map _).nodup_iff, names_sortedMembers]
  exact h

/-- What two objects have under a name is the same up to order if the objects are. -/
theorem sorted_member?_eq {members others : List (String × Value)}
    (hmembers : (members.map (·.1)).Nodup) (hothers : (others.map (·.1)).Nodup)
    (h : sorted (.object members) = sorted (.object others)) (name : String) :
    (member? name members).map sorted = (member? name others).map sorted := by
  rw [← get?_sorted hmembers, ← get?_sorted hothers, h]

theorem sortedItems_eq_map (items : List Value) : sortedItems items = items.map sorted := by
  induction items with
  | nil => rfl
  | cons item rest ih => rw [sortedItems, ih, List.map_cons]

/-! ## Integers -/

mutual

theorem integral_sorted : ∀ v : Value, v.Integral → v.sorted.Integral
  | .null, h => h
  | .bool _, h => h
  | .number _, h => h
  | .string _, h => h
  | .array items, h => integralItems_sorted items h
  | .object members, h => by
    have hmembers := integralMembers_sorted members h
    rw [sorted]
    change IntegralMembers _
    rw [integralMembers_iff] at hmembers ⊢
    intro member hmem
    exact hmembers member ((List.mergeSort_perm _ _).mem_iff.mp hmem)

theorem integralItems_sorted : ∀ items : List Value, IntegralItems items →
    IntegralItems (sortedItems items)
  | [], h => h
  | item :: rest, h => ⟨integral_sorted item h.1, integralItems_sorted rest h.2⟩

theorem integralMembers_sorted : ∀ members : List (String × Value), IntegralMembers members →
    IntegralMembers (sortedMembers members)
  | [], h => h
  | (_, value) :: rest, h => ⟨integral_sorted value h.1, integralMembers_sorted rest h.2⟩

end

/-- Values with one canonical text differ in the order of members alone. -/
theorem sorted_eq_of_canonical_eq {v w : Value} (hv : v.Integral) (hw : w.Integral)
    (h : v.canonical = w.canonical) : v.sorted = w.sorted := by
  have htext : v.sorted.compact = w.sorted.compact := by
    simpa [canonical, text] using congrArg String.toList h
  exact eq_of_compact_eq (integral_sorted v hv) (integral_sorted w hw) htext

end Agentry.Json.Value
