import Agentry.Proofs.Json.Canonical
import Agentry.Proofs.Spec.Codec
import Agentry.Spec.Digest
/-!
# What a digest says

The text behind a digest holds the spec up to the order of members, and the names of the fields in
their order. So two well-formed specs with one such text are equal, and as far as SHA-256 does not
collide a digest belongs to one spec.
-/
namespace Agentry

open Json (Value)
open Json.Value (member? sorted sortedItems sortedItems_eq_map sorted_member?_eq)

/-! ## Parts of sorted documents -/

theorem FieldType.eq_of_name_eq {s t : FieldType} (hs : s.IsCanonical) (ht : t.IsCanonical)
    (h : s.name = t.name) : s = t := by
  rw [← hs, ← ht, h]

theorem Tool.eq_of_sorted {s t : Tool} (h : s.toJson.sorted = t.toJson.sorted) : s = t := by
  have hmember := sorted_member?_eq (by simp) (by simp) h
  have hid := hmember "id"
  have hdisplay := hmember "displayName"
  have hcategory := hmember "category"
  simp [member?, sorted] at hid hdisplay hcategory
  cases s
  cases t
  simp_all

theorem FieldSpec.eq_of_sorted {s t : FieldSpec} (hs : s.type.IsCanonical)
    (ht : t.type.IsCanonical) (h : s.toJson.sorted = t.toJson.sorted) : s = t := by
  have hmember := sorted_member?_eq (by simp) (by simp) h
  have htype := hmember "type"
  have hrequired := hmember "required"
  have hdescription := hmember "description"
  simp [member?, sorted, FieldType.toJson] at htype hrequired hdescription
  have heq := FieldType.eq_of_name_eq hs ht htype
  cases s
  cases t
  simp_all

theorem Tool.list_eq_of_sorted {ss ts : List Tool}
    (h : (listToJson ss).sorted = (listToJson ts).sorted) : ss = ts := by
  have hitems := Value.array.inj h
  rw [sortedItems_eq_map, sortedItems_eq_map, List.map_map, List.map_map] at hitems
  exact (List.map_inj_right fun _ _ => Tool.eq_of_sorted).mp hitems

namespace Schema

/-- The members of a schema's document in their own order. -/
def members (entries : List (String × FieldSpec)) : List (String × Value) :=
  entries.map fun (name, field) => (name, field.toJson)

theorem names_members (entries : List (String × FieldSpec)) :
    (members entries).map (·.1) = entries.map (·.1) := by
  simp [members]

/-- The names in their order and what stands under each of them make up the fields. -/
theorem fields_eq_of_members {es fs : List (String × FieldSpec)}
    (hnames : es.map (·.1) = fs.map (·.1)) (hnodup : (es.map (·.1)).Nodup)
    (hes : ∀ e ∈ es, e.2.type.IsCanonical) (hfs : ∀ f ∈ fs, f.2.type.IsCanonical)
    (h : ∀ name ∈ es.map (·.1),
      (member? name (members es)).map sorted = (member? name (members fs)).map sorted) :
    es = fs := by
  induction es generalizing fs with
  | nil => exact (List.map_eq_nil_iff.mp hnames.symm).symm
  | cons e es ih =>
    cases fs with
    | nil => cases hnames
    | cons f fs =>
      obtain ⟨n, field⟩ := e
      obtain ⟨m, other⟩ := f
      obtain ⟨rfl, htail⟩ : n = m ∧ es.map (·.1) = fs.map (·.1) := List.cons.inj hnames
      obtain ⟨hnew, hrest⟩ : n ∉ es.map (·.1) ∧ (es.map (·.1)).Nodup := List.nodup_cons.mp hnodup
      have hhead := h n List.mem_cons_self
      simp only [members, List.map_cons, member?, if_pos, Option.map_some] at hhead
      have hfield : field = other := FieldSpec.eq_of_sorted (hes _ List.mem_cons_self)
        (hfs _ List.mem_cons_self) (Option.some.inj hhead)
      have hlists : es = fs := by
        apply ih htail hrest (fun e he => hes e (List.mem_cons_of_mem _ he))
          (fun f hf => hfs f (List.mem_cons_of_mem _ hf))
        intro name hmem
        have hne : n ≠ name := fun heq => hnew (heq ▸ hmem)
        have hname := h name (List.mem_cons_of_mem _ hmem)
        simpa only [members, List.map_cons, member?, if_neg hne] using hname
      rw [hfield, hlists]

theorem eq_of_sorted {s t : Schema} (hs : s.WellFormed) (ht : t.WellFormed)
    (hnames : s.names = t.names) (h : s.toJson.sorted = t.toJson.sorted) : s = t := by
  have hsnames : ((members s.fields).map (·.1)).Nodup := by
    rw [names_members]
    exact hs.1
  have htnames : ((members t.fields).map (·.1)).Nodup := by
    rw [names_members]
    exact ht.1
  have hfields : s.fields = t.fields := fields_eq_of_members hnames hs.1 hs.2 ht.2 fun name _ =>
    sorted_member?_eq hsnames htnames h name
  obtain ⟨es⟩ := s
  obtain ⟨fs⟩ := t
  exact congrArg Schema.mk hfields

end Schema

/-! ## Specs -/

namespace AgentSpec

theorem eq_of_sorted {s t : AgentSpec} (hs : s.WellFormed) (ht : t.WellFormed)
    (hinputs : s.inputs.names = t.inputs.names) (houtputs : s.outputs.names = t.outputs.names)
    (h : s.toJson.sorted = t.toJson.sorted) : s = t := by
  have hmember := sorted_member?_eq (by simp) (by simp) h
  have hname := hmember "name"
  have hdescription := hmember "description"
  have hversion := hmember "version"
  have hprompt := hmember "systemPrompt"
  have htools := hmember "tools"
  have hinputSchema := hmember "inputSchema"
  have houtputSchema := hmember "outputSchema"
  simp [member?, sorted] at hname hdescription hversion hprompt
  simp [member?] at htools hinputSchema houtputSchema
  have htools' := Tool.list_eq_of_sorted htools
  have hinputs' := Schema.eq_of_sorted hs.1 ht.1 hinputs hinputSchema
  have houtputs' := Schema.eq_of_sorted hs.2 ht.2 houtputs houtputSchema
  cases s
  cases t
  simp_all

theorem strings_injective {ss ts : List String}
    (h : (Value.strings ss).sorted = (Value.strings ts).sorted) : ss = ts := by
  have hitems := Value.array.inj h
  rw [sortedItems_eq_map, sortedItems_eq_map, List.map_map, List.map_map] at hitems
  exact (List.map_inj_right fun _ _ hst => Value.string.inj hst).mp hitems

theorem integral_digestValue (spec : AgentSpec) : spec.digestValue.Integral := by
  have hstrings : ∀ names : List String, (Value.strings names).Integral := by
    intro names
    rw [Value.strings, Value.Integral, Value.integralItems_iff]
    intro item hitem
    obtain ⟨name, _, rfl⟩ := List.mem_map.mp hitem
    trivial
  exact ⟨spec.integral_toJson, hstrings _, hstrings _, trivial⟩

/-- The text behind a digest tells well-formed specs apart. -/
theorem digestText_injective {s t : AgentSpec} (hs : s.WellFormed) (ht : t.WellFormed)
    (h : s.digestText = t.digestText) : s = t := by
  have hsorted := Value.sorted_eq_of_canonical_eq s.integral_digestValue t.integral_digestValue h
  have hmember := sorted_member?_eq (by simp) (by simp) hsorted
  have hspec := hmember "spec"
  have hinputs := hmember "input_order"
  have houtputs := hmember "output_order"
  simp [member?] at hspec hinputs houtputs
  exact eq_of_sorted hs ht (strings_injective hinputs) (strings_injective houtputs) hspec

/-- Two texts on which SHA-256 does not collide. -/
def NoCollision (x y : String) : Prop := Sha256.hexDigest x = Sha256.hexDigest y → x = y

theorem eq_of_digest_eq {s t : AgentSpec} (hs : s.WellFormed) (ht : t.WellFormed)
    (hcollision : NoCollision s.digestText t.digestText) (h : s.digest = t.digest) : s = t :=
  digestText_injective hs ht (hcollision h)

end AgentSpec
end Agentry
