import Agentry.Proofs.Json.Canonical
import Agentry.Proofs.Text.ByteOrder
import Mathlib.Data.List.Nodup
/-!
# Canonical texts as normal forms

Values that differ in the order of the members of their objects have one canonical text, and no
others do. The text is read back as a value that differs from the first one in that order alone.
-/
namespace Agentry.Json

/-! ## Integers read back -/

namespace Numeral

theorem le_foldl_digits (ds : List Char) (k : Nat) :
    k ≤ ds.foldl (fun n d => n * 10 + digitValue d) k := by
  induction ds generalizing k with
  | nil => exact Nat.le_refl k
  | cons d ds ih =>
    have hrest := ih (k * 10 + digitValue d)
    rw [List.foldl_cons]
    omega

theorem gather_of_lt {ds : List Char} {k : Nat}
    (h : ds.foldl (fun n d => n * 10 + digitValue d) k < significandLimit) :
    gather k ds = (ds.foldl (fun n d => n * 10 + digitValue d) k, []) := by
  induction ds generalizing k with
  | nil => rfl
  | cons d ds ih =>
    have hnext : k * 10 + digitValue d < significandLimit :=
      Nat.lt_of_le_of_lt (le_foldl_digits ds _) h
    rw [gather, if_pos hnext, ih h]
    rfl

theorem value?_ofInt {i : Int} (hlow : -(Nat.pow 2 63 : Nat) ≤ i) (hhigh : i < Nat.pow 2 64) :
    (ofInt i).value? = some (.integer i) := by
  -- All digits fit into the significand, so the numeral does not become a double.
  have hlimit : significandLimit = Nat.pow 2 64 := rfl
  have hhalf : Nat.pow 2 63 < Nat.pow 2 64 := by decide
  have hgather : gather 0 (decimalDigits i.natAbs) = (i.natAbs, []) := by
    have hvalue := digitsValue_decimalDigits i.natAbs
    rw [digitsValue] at hvalue
    have hlt : i.natAbs < significandLimit := by omega
    rw [gather_of_lt (hvalue.symm ▸ hlt), hvalue]
  simp only [value?, ofInt, hgather]
  by_cases hneg : i < 0
  · have hrange : 0 < i.natAbs ∧ i.natAbs ≤ Nat.pow 2 63 := by omega
    have habs : -(i.natAbs : Int) = i := by omega
    simp only [List.isEmpty_nil, Option.isNone_none, hneg, decide_true, hrange, Bool.and_self,
      Bool.or_true, if_true, habs]
  · have habs : (i.natAbs : Int) = i := by omega
    simp only [List.isEmpty_nil, Option.isNone_none, hneg, decide_false, Bool.not_false,
      Bool.and_self, Bool.true_or, if_true, Bool.false_eq_true, if_false, habs]

end Numeral

namespace Value

/-! ## Values up to the order of members -/

/-- Values of documents that have integers as their only numbers. An integer has 64 bits, with a
sign or without one, and no name comes twice in an object. -/
inductive Proper : Value → Prop where
  | null : Proper .null
  | bool (b : Bool) : Proper (.bool b)
  | string (s : String) : Proper (.string s)
  | integer {i : Int} : -(Nat.pow 2 63 : Nat) ≤ i → i < Nat.pow 2 64 →
    Proper (.number (.integer i))
  | array {items : List Value} : (∀ item ∈ items, Proper item) → Proper (.array items)
  | object {members : List (String × Value)} :
    (members.map (·.1)).Nodup → (∀ member ∈ members, Proper member.2) → Proper (.object members)

/-- Values that are equal up to the order of the members of objects, at any depth. -/
inductive Reordered : Value → Value → Prop where
  | refl (v : Value) : Reordered v v
  | trans {u v w : Value} : Reordered u v → Reordered v w → Reordered u w
  | item {v w : Value} (before after : List Value) : Reordered v w →
    Reordered (.array (before ++ v :: after)) (.array (before ++ w :: after))
  | member {v w : Value} (name : String) (before after : List (String × Value)) :
    Reordered v w →
      Reordered (.object (before ++ (name, v) :: after)) (.object (before ++ (name, w) :: after))
  | members {members others : List (String × Value)} : members.Perm others →
    Reordered (.object members) (.object others)

/-- Names that increase in the order of their octets, in every object. -/
inductive Ascending : Value → Prop where
  | null : Ascending .null
  | bool (b : Bool) : Ascending (.bool b)
  | string (s : String) : Ascending (.string s)
  | number (n : Number) : Ascending (.number n)
  | array {items : List Value} : (∀ item ∈ items, Ascending item) → Ascending (.array items)
  | object {members : List (String × Value)} :
    members.Pairwise (fun a b => a.1.toUTF8.toList < b.1.toUTF8.toList) →
      (∀ member ∈ members, Ascending member.2) → Ascending (.object members)

mutual

/-- How many containers a value nests. -/
def nesting : Value → Nat
  | .array items => nestingItems items + 1
  | .object members => nestingMembers members + 1
  | _ => 0

def nestingItems : List Value → Nat
  | [] => 0
  | item :: rest => max (nesting item) (nestingItems rest)

def nestingMembers : List (String × Value) → Nat
  | [] => 0
  | (_, value) :: rest => max (nesting value) (nestingMembers rest)

end

variable {v w : Value} {items : List Value} {members others : List (String × Value)}

theorem sortedMembers_eq_map (members : List (String × Value)) :
    sortedMembers members = members.map fun member => (member.1, member.2.sorted) := by
  induction members with
  | nil => rfl
  | cons member rest ih => rw [sortedMembers, ih, List.map_cons]

theorem Proper.integral (h : v.Proper) : v.Integral := by
  induction h with
  | null => trivial
  | bool b => trivial
  | string s => trivial
  | integer hlow hhigh => exact ⟨_, rfl⟩
  | array _ ih => exact integralItems_iff.mpr ih
  | object _ _ ih => exact integralMembers_iff.mpr ih

theorem Reordered.symm (h : Reordered v w) : Reordered w v := by
  induction h with
  | refl v => exact .refl v
  | trans _ _ ih ih' => exact ih'.trans ih
  | item before after _ ih => exact .item before after ih
  | member name before after _ ih => exact .member name before after ih
  | members hperm => exact .members hperm.symm

theorem Proper.reordered (hv : v.Proper) (h : Reordered v w) : w.Proper := by
  induction h with
  | refl v => exact hv
  | trans _ _ ih ih' => exact ih' (ih hv)
  | item before after _ ih =>
    cases hv with
    | array hitems =>
      simp only [List.forall_mem_append, List.forall_mem_cons] at hitems
      apply Proper.array
      simp only [List.forall_mem_append, List.forall_mem_cons]
      exact ⟨hitems.1, ih hitems.2.1, hitems.2.2⟩
  | member name before after _ ih =>
    cases hv with
    | object hnames hmembers =>
      simp only [List.forall_mem_append, List.forall_mem_cons] at hmembers
      apply Proper.object
      · simpa using hnames
      · simp only [List.forall_mem_append, List.forall_mem_cons]
        exact ⟨hmembers.1, ih hmembers.2.1, hmembers.2.2⟩
  | members hperm =>
    cases hv with
    | object hnames hmembers =>
      apply Proper.object
      · exact (hperm.map _).nodup_iff.mp hnames
      · exact fun member hmember => hmembers member (hperm.mem_iff.mpr hmember)

/-! ## Sorting -/

theorem reordered_items (f : Value → Value) (before : List Value)
    (h : ∀ item ∈ items, Reordered item (f item)) :
    Reordered (.array (before ++ items)) (.array (before ++ items.map f)) := by
  induction items generalizing before with
  | nil => exact .refl _
  | cons item rest ih =>
    obtain ⟨hitem, hrest⟩ := List.forall_mem_cons.mp h
    have htail := ih (before ++ [f item]) hrest
    rw [List.append_assoc, List.append_assoc] at htail
    exact (Reordered.item before rest hitem).trans htail

theorem reordered_members (f : Value → Value) (before : List (String × Value))
    (h : ∀ member ∈ members, Reordered member.2 (f member.2)) :
    Reordered (.object (before ++ members))
      (.object (before ++ members.map fun member => (member.1, f member.2))) := by
  induction members generalizing before with
  | nil => exact .refl _
  | cons member rest ih =>
    obtain ⟨hmember, hrest⟩ := List.forall_mem_cons.mp h
    have htail := ih (before ++ [(member.1, f member.2)]) hrest
    rw [List.append_assoc, List.append_assoc] at htail
    exact (Reordered.member member.1 before rest hmember).trans htail

theorem Proper.reordered_sorted (h : v.Proper) : Reordered v v.sorted := by
  induction h with
  | null => exact .refl _
  | bool b => exact .refl _
  | string s => exact .refl _
  | integer hlow hhigh => exact .refl _
  | array _ ih =>
    rw [sorted, sortedItems_eq_map]
    exact reordered_items sorted [] ih
  | object _ _ ih =>
    rw [sorted, sortedMembers_eq_map]
    exact (reordered_members sorted [] ih).trans (.members (List.mergeSort_perm _ _).symm)

theorem pairwise_mergeSort_nameLe (members : List (String × Value)) :
    (members.mergeSort nameLe).Pairwise fun a b => a.1 ≤ b.1 :=
  Text.pairwise_mergeSort_le Prod.fst members

/-- Members with distinct names have one sorted order. -/
theorem mergeSort_eq_of_perm (hperm : members.Perm others) (h : (members.map (·.1)).Nodup) :
    members.mergeSort nameLe = others.mergeSort nameLe := by
  have hsorts := (List.mergeSort_perm members nameLe).trans
    (hperm.trans (List.mergeSort_perm others nameLe).symm)
  refine hsorts.eq_of_pairwise ?_ (pairwise_mergeSort_nameLe members)
    (pairwise_mergeSort_nameLe others)
  intro a b ha hb hab hba
  have ha' : a ∈ members := (List.mergeSort_perm _ _).mem_iff.mp ha
  have hb' : b ∈ members := hperm.mem_iff.mpr ((List.mergeSort_perm _ _).mem_iff.mp hb)
  exact List.inj_on_of_nodup_map h ha' hb' (le_antisymm hab hba)

theorem Proper.sorted_eq (hv : v.Proper) (h : Reordered v w) : v.sorted = w.sorted := by
  -- Names have to be distinct on the whole way from one value to the other.
  induction h with
  | refl v => rfl
  | trans huv _ ih ih' => exact (ih hv).trans (ih' (hv.reordered huv))
  | item before after _ ih =>
    cases hv with
    | array hitems =>
      simp only [sorted, sortedItems_eq_map, List.map_append, List.map_cons,
        ih (hitems _ (by simp))]
  | member name before after _ ih =>
    cases hv with
    | object _ hmembers =>
      have hvalue := ih (hmembers (name, _) (by simp))
      simp only [sorted, sortedMembers_eq_map, List.map_append, List.map_cons, hvalue]
  | members hperm =>
    cases hv with
    | object hnames _ =>
      rw [sorted, sorted, mergeSort_eq_of_perm]
      · simpa only [sortedMembers_eq_map] using hperm.map _
      · rwa [names_sortedMembers]

theorem Proper.ascending_sorted (h : v.Proper) : v.sorted.Ascending := by
  induction h with
  | null => exact .null
  | bool b => exact .bool b
  | string s => exact .string s
  | integer hlow hhigh => exact .number _
  | array _ ih =>
    rw [sorted, sortedItems_eq_map]
    exact .array (List.forall_mem_map.mpr ih)
  | @object members hnames _ ih =>
    rw [sorted]
    have hperm := List.mergeSort_perm (sortedMembers members) nameLe
    apply Ascending.object
    · rw [← names_sortedMembers] at hnames
      exact Text.increasing_mergeSort Prod.fst hnames
    · intro member hmember
      rw [hperm.mem_iff, sortedMembers_eq_map] at hmember
      obtain ⟨original, horiginal, rfl⟩ := List.mem_map.mp hmember
      exact ih original horiginal

/-! ## Reading back -/

theorem nestingItems_append (before after : List Value) :
    nestingItems (before ++ after) = max (nestingItems before) (nestingItems after) := by
  induction before with
  | nil => exact (Nat.zero_max _).symm
  | cons item before ih => rw [List.cons_append, nestingItems, nestingItems, ih, Nat.max_assoc]

theorem nestingMembers_append (before after : List (String × Value)) :
    nestingMembers (before ++ after) = max (nestingMembers before) (nestingMembers after) := by
  induction before with
  | nil => exact (Nat.zero_max _).symm
  | cons member before ih =>
    rw [List.cons_append, nestingMembers, nestingMembers, ih, Nat.max_assoc]

theorem nestingMembers_perm (h : members.Perm others) :
    nestingMembers members = nestingMembers others := by
  induction h with
  | nil => rfl
  | cons member _ ih => rw [nestingMembers, nestingMembers, ih]
  | swap a b rest => simp only [nestingMembers, Nat.max_left_comm]
  | trans _ _ ih ih' => exact ih.trans ih'

theorem Reordered.nesting_eq (h : Reordered v w) : v.nesting = w.nesting := by
  induction h with
  | refl v => rfl
  | trans _ _ ih ih' => exact ih.trans ih'
  | item before after _ ih =>
    simp only [nesting, nestingItems_append, nestingItems, ih]
  | member name before after _ ih =>
    simp only [nesting, nestingMembers_append, nestingMembers, ih]
  | members hperm => rw [nesting, nesting, nestingMembers_perm hperm]

theorem nesting_le_nestingItems {item : Value} (h : item ∈ items) :
    item.nesting ≤ nestingItems items := by
  obtain ⟨before, after, rfl⟩ := List.append_of_mem h
  rw [nestingItems_append, nestingItems]
  omega

theorem nesting_le_nestingMembers {member : String × Value} (h : member ∈ members) :
    member.2.nesting ≤ nestingMembers members := by
  obtain ⟨before, after, rfl⟩ := List.append_of_mem h
  rw [nestingMembers_append, nestingMembers]
  omega

theorem valueItems_ofItems {depth : Nat}
    (h : ∀ item ∈ items, Decoder.valueAt depth (Node.ofValue item) = .ok item) :
    Decoder.valueItems depth (Node.ofItems items) = .ok items := by
  induction items with
  | nil => rfl
  | cons item rest ih =>
    obtain ⟨hitem, hrest⟩ := List.forall_mem_cons.mp h
    simp only [Node.ofItems, Decoder.valueItems, hitem, ih hrest, bind, Except.bind, pure,
      Except.pure]

/-- Members under new names come behind those that were read before. -/
theorem valueMembers_ofMembers {depth : Nat} {done : List (String × Value)}
    (h : ∀ member ∈ members, Decoder.valueAt depth (Node.ofValue member.2) = .ok member.2)
    (hnames : ((done ++ members).map (·.1)).Nodup) :
    Decoder.valueMembers depth (Node.ofMembers members) done = .ok (done ++ members) := by
  induction members generalizing done with
  | nil => rw [List.append_nil, Node.ofMembers, Decoder.valueMembers]
  | cons member rest ih =>
    obtain ⟨name, value⟩ := member
    obtain ⟨hvalue, hrest⟩ := List.forall_mem_cons.mp h
    have hnew : name ∉ done.map (·.1) := by
      intro hmem
      rw [List.map_append] at hnames
      exact (List.nodup_append.mp hnames).2.2 name hmem name List.mem_cons_self rfl
    rw [List.append_cons] at hnames ⊢
    rw [Node.ofMembers, Decoder.valueMembers]
    simp only [hvalue, bind, Except.bind, setMember_new hnew]
    exact ih hrest hnames

/-- A reader that may enter as many containers as a value nests reads the value's document back. -/
theorem Proper.valueAt_ofValue (h : v.Proper) (limit : Nat) (hlimit : v.nesting ≤ limit) :
    Decoder.valueAt limit (Node.ofValue v) = .ok v := by
  induction h generalizing limit with
  | null => rfl
  | bool b => rfl
  | string s => rfl
  | integer hlow hhigh =>
    rw [Node.ofValue_integer, Decoder.valueAt, Numeral.value?_ofInt hlow hhigh]
    rfl
  | array _ ih =>
    cases limit with
    | zero => cases hlimit
    | succ limit =>
      have hitems := valueItems_ofItems fun item hitem => ih item hitem limit
        ((nesting_le_nestingItems hitem).trans (Nat.le_of_succ_le_succ hlimit))
      simp only [Node.ofValue, Decoder.valueAt, hitems, bind, Except.bind, pure, Except.pure]
  | @object members hnames _ ih =>
    cases limit with
    | zero => cases hlimit
    | succ limit =>
      have hdistinct : ((([] : List (String × Value)) ++ members).map (·.1)).Nodup := hnames
      have hmembers := valueMembers_ofMembers (fun member hmember => ih member hmember limit
        ((nesting_le_nestingMembers hmember).trans (Nat.le_of_succ_le_succ hlimit))) hdistinct
      rw [List.nil_append] at hmembers
      simp only [Node.ofValue, Decoder.valueAt, hmembers, bind, Except.bind, pure, Except.pure]

/-! ## The normal form -/

/-- What the canonical text of a value is. -/
structure NormalForm (v : Value) (text : String) : Prop where
  equal_iff : ∀ w : Value, w.Proper → (w.canonical = text ↔ Reordered v w)
  written : Node.read text.toList = (Node.ofValue v.sorted, some [])
  reads : ∀ limit, v.nesting ≤ limit →
    Json.decode (fun _ => Decoder.valueAt limit) text = .ok v.sorted
  own : v.nesting ≤ depthLimit → Json.decode Decoder.value text = .ok v.sorted
  reordered : Reordered v v.sorted
  ascending : v.sorted.Ascending
  again : v.sorted.canonical = text

theorem canonical_normalForm (hv : v.Proper) : NormalForm v v.canonical := by
  have hsorted : v.sorted.Proper := hv.reordered hv.reordered_sorted
  have hnesting : v.sorted.nesting = v.nesting := hv.reordered_sorted.nesting_eq.symm
  constructor
  case equal_iff =>
    intro w hw
    constructor
    · intro h
      have hsame : w.sorted = v.sorted := sorted_eq_of_canonical_eq hw.integral hv.integral h
      exact hv.reordered_sorted.trans (hsame ▸ hw.reordered_sorted.symm)
    · intro h
      rw [canonical, canonical, hv.sorted_eq h]
  case written =>
    have hread := Node.read_written blank_nil (written_compact _ hsorted.integral) blank_nil
    rw [List.nil_append, List.append_nil] at hread
    rwa [canonical, text, String.toList_ofList]
  case reads =>
    intro limit hlimit
    exact decode_text hsorted.integral (hsorted.valueAt_ofValue limit (hnesting ▸ hlimit))
  case own =>
    intro hlimit
    exact decode_text hsorted.integral (hsorted.valueAt_ofValue depthLimit (hnesting ▸ hlimit))
  case reordered => exact hv.reordered_sorted
  case ascending => exact hv.ascending_sorted
  case again =>
    rw [canonical, ← hv.sorted_eq hv.reordered_sorted, canonical]

/-- Members in two orders, in an object and in one below it. -/
theorem canonical_normalForm_shuffled :
    let one : Value := ofInt 1
    let two : Value := ofInt 2
    let v : Value := .object [("b", one), ("a", .object [("z", one), ("y", two)])]
    let w : Value := .object [("a", .object [("y", two), ("z", one)]), ("b", one)]
    w.canonical = v.canonical ∧ Json.decode Decoder.value v.canonical = .ok w := by
  intro one two v w
  have hone : one.Proper := .integer (by decide) (by decide)
  have htwo : two.Proper := .integer (by decide) (by decide)
  have hv : v.Proper := by
    apply Proper.object (by decide)
    have hinner : (object [("z", one), ("y", two)]).Proper :=
      .object (by decide) (by simpa using ⟨hone, htwo⟩)
    simpa using ⟨hone, hinner⟩
  have hinner : Reordered (.object [("z", one), ("y", two)]) (.object [("y", two), ("z", one)]) :=
    .members (.swap _ _ _)
  have hreordered : Reordered v w :=
    (Reordered.member "a" [("b", one)] [] hinner).trans (.members (.swap _ _ _))
  have hform := canonical_normalForm hv
  have hsorted : v.sorted = w := by
    simp [v, w, one, two, ofInt, sorted, sortedMembers, List.mergeSort, nameLe]
  refine ⟨(hform.equal_iff w (hv.reordered hreordered)).mpr hreordered, ?_⟩
  rw [hform.own (by decide), hsorted]

end Value
end Agentry.Json
