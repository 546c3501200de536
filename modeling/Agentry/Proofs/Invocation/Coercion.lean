import Agentry.Proofs.Invocation.Meaning
import Agentry.Proofs.Json.Canonical
import Mathlib.Data.List.Nodup
/-!
# Arguments and fields

The argument at an index belongs to the field at that index. The first field that cannot be filled
refuses the arguments, and otherwise the record has one entry for each field with an argument, which
depends on that field and that argument alone.
-/
namespace Agentry

open Json (Value)

namespace Input

open Argument (Means NotNumber existsUnique_means meaning means_iff)

variable {strict : Bool} {fields : List (String × FieldSpec)} {arguments : List String}

/-- Why the field at an index cannot be filled. -/
inductive Refuses (strict : Bool) (fields : List (String × FieldSpec)) (arguments : List String)
    (i : Nat) : CoercionError → Prop
  | missing {name : String} {field : FieldSpec} (hfield : fields[i]? = some (name, field))
    (hargument : arguments[i]? = none) (hrequired : field.required = true) :
    Refuses strict fields arguments i (.missing name)
  | notNumber {name : String} {field : FieldSpec} {text : String}
    (hfield : fields[i]? = some (name, field)) (hargument : arguments[i]? = some text)
    (hnumber : NotNumber strict field.type text) :
    Refuses strict fields arguments i (.invalidNumber name text)

/-- The field at an index cannot be filled, and all fields before it can. -/
def RefusesFirst (strict : Bool) (fields : List (String × FieldSpec)) (arguments : List String)
    (i : Nat) (e : CoercionError) : Prop :=
  Refuses strict fields arguments i e ∧ ∀ j < i, ∀ e', ¬ Refuses strict fields arguments j e'

/-- A record of the fields that have an argument, in their order, each with what its argument means
under its type. -/
structure Holds (fields : List (String × FieldSpec)) (arguments : List String) (record : Input) :
    Prop where
  size : record.size = min fields.length arguments.length
  entry : ∀ (i : Nat) name (field : FieldSpec) text, fields[i]? = some (name, field) →
    arguments[i]? = some text →
    ∃ value, record.fields[i]? = some (name, value) ∧ Means field.type text value

/-- The entries of the fields that have an argument. -/
def entries (fields : List (String × FieldSpec)) (arguments : List String) :
    List (String × Value) :=
  List.zipWith (fun entry text => (entry.1, meaning entry.2.type text)) fields arguments

def insertAll (record : Input) (entries : List (String × Value)) : Input :=
  entries.foldl (fun record entry => record.insert entry.1 entry.2) record

/-! ## One field -/

variable {entry : String × FieldSpec} {text : String} {i : Nat} {e : CoercionError}

theorem refuses_nil : ¬ Refuses strict [] arguments i e := by
  rintro (⟨hfield, -, -⟩ | ⟨hfield, -, -⟩) <;> simp at hfield

theorem refuses_zero_missing :
    Refuses strict (entry :: fields) [] 0 e ↔ entry.2.required = true ∧ e = .missing entry.1 := by
  constructor
  · rintro (⟨hfield, -, hrequired⟩ | ⟨-, hargument, -⟩)
    · obtain rfl : entry = _ := by simpa using hfield
      exact ⟨hrequired, rfl⟩
    · simp at hargument
  · rintro ⟨hrequired, rfl⟩
    exact .missing (by simp) (by simp) hrequired

theorem refuses_zero_argument :
    Refuses strict (entry :: fields) (text :: arguments) 0 e ↔
      NotNumber strict entry.2.type text ∧ e = .invalidNumber entry.1 text := by
  constructor
  · rintro (⟨-, hargument, -⟩ | ⟨hfield, hargument, hnumber⟩)
    · simp at hargument
    · obtain rfl : entry = _ := by simpa using hfield
      obtain rfl : text = _ := by simpa using hargument
      exact ⟨hnumber, rfl⟩
  · rintro ⟨hnumber, rfl⟩
    exact .notNumber (by simp) (by simp) hnumber

theorem refuses_succ :
    Refuses strict (entry :: fields) arguments (i + 1) e ↔
      Refuses strict fields arguments.tail i e := by
  have htail : arguments.tail[i]? = arguments[i + 1]? := by simp
  constructor
  · rintro (⟨hfield, hargument, hrequired⟩ | ⟨hfield, hargument, hnumber⟩)
    · exact .missing (by simpa using hfield) (htail.trans hargument) hrequired
    · exact .notNumber (by simpa using hfield) (htail.trans hargument) hnumber
  · rintro (⟨hfield, hargument, hrequired⟩ | ⟨hfield, hargument, hnumber⟩)
    · exact .missing (by simpa using hfield) (htail.symm.trans hargument) hrequired
    · exact .notNumber (by simpa using hfield) (htail.symm.trans hargument) hnumber

/-- The first refusal comes from the first field, or that field can be filled and the first refusal
of the others comes one index later. -/
theorem refusesFirst_cons :
    (∃ i, RefusesFirst strict (entry :: fields) arguments i e) ↔
      Refuses strict (entry :: fields) arguments 0 e ∨
        (∀ e', ¬ Refuses strict (entry :: fields) arguments 0 e') ∧
          ∃ i, RefusesFirst strict fields arguments.tail i e := by
  constructor
  · rintro ⟨i, hrefuses, hbefore⟩
    cases i with
    | zero => exact Or.inl hrefuses
    | succ i =>
      refine Or.inr ⟨hbefore 0 (by omega), i, refuses_succ.mp hrefuses, fun j hj e' he' => ?_⟩
      exact hbefore (j + 1) (by omega) e' (refuses_succ.mpr he')
  · rintro (hrefuses | ⟨hzero, i, hrefuses, hbefore⟩)
    · exact ⟨0, hrefuses, fun j hj => absurd hj (by omega)⟩
    · refine ⟨i + 1, refuses_succ.mpr hrefuses, fun j hj e' he' => ?_⟩
      cases j with
      | zero => exact hzero e' he'
      | succ j => exact hbefore j (by omega) e' (refuses_succ.mp he')

theorem not_refuses_cons :
    (∀ i e, ¬ Refuses strict (entry :: fields) arguments i e) ↔
      (∀ e, ¬ Refuses strict (entry :: fields) arguments 0 e) ∧
        ∀ i e, ¬ Refuses strict fields arguments.tail i e := by
  constructor
  · intro h
    exact ⟨h 0, fun i e he => h (i + 1) e (refuses_succ.mpr he)⟩
  · rintro ⟨hzero, hrest⟩ i e he
    cases i with
    | zero => exact hzero e he
    | succ i => exact hrest i e (refuses_succ.mp he)

theorem not_refuses_of_argument {name : String} {field : FieldSpec}
    (hfield : fields[i]? = some (name, field)) (hargument : arguments[i]? = some text)
    (hnumber : ¬ NotNumber strict field.type text) : ¬ Refuses strict fields arguments i e := by
  rintro (⟨-, hnone, -⟩ | ⟨hfield', htext, hrefused⟩)
  · rw [hargument] at hnone
    cases hnone
  · rw [hfield] at hfield'
    rw [hargument] at htext
    cases hfield'
    cases htext
    exact hnumber hrefused

/-! ## All fields -/

/-- The arguments are refused by the first field that cannot be filled, and otherwise every entry is
put into the record. -/
theorem coerceFields_spec (strict : Bool) (fields : List (String × FieldSpec))
    (arguments : List String) (record : Input) :
    (∀ e, coerceFields strict fields arguments record = .error e ↔
      ∃ i, RefusesFirst strict fields arguments i e) ∧
    ∀ final, coerceFields strict fields arguments record = .ok final ↔
      (∀ i e, ¬ Refuses strict fields arguments i e) ∧
        final = record.insertAll (entries fields arguments) := by
  induction fields generalizing arguments record with
  | nil =>
    simp [coerceFields, RefusesFirst, refuses_nil, entries, insertAll, eq_comm]
  | cons entry fields ih =>
    obtain ⟨name, field⟩ := entry
    cases arguments with
    | nil =>
      obtain ⟨iherror, ihok⟩ := ih [] record
      have hentries : ∀ fields, entries fields [] = [] := fun fields => List.zipWith_nil_right
      by_cases hrequired : field.required = true
      · simp [coerceFields, hrequired, refusesFirst_cons, not_refuses_cons, refuses_zero_missing,
          eq_comm]
      · simp [coerceFields, hrequired, refusesFirst_cons, not_refuses_cons, refuses_zero_missing,
          iherror, ihok, hentries]
    | cons text arguments =>
      obtain ⟨iherror, ihok⟩ := ih arguments (record.insert name (meaning field.type text))
      by_cases hnumber : NotNumber strict field.type text
      · simp [coerceFields, Argument.value_eq, hnumber, refusesFirst_cons, not_refuses_cons,
          refuses_zero_argument, bind, Except.bind, eq_comm]
      · simp [coerceFields, Argument.value_eq, hnumber, refusesFirst_cons, not_refuses_cons,
          refuses_zero_argument, bind, Except.bind, iherror, ihok, entries, insertAll]

/-! ## The record -/

/-- Entries under new names come after those that are there. -/
theorem fields_insertAll (record : Input) {entries : List (String × Value)}
    (h : ((record.fields ++ entries).map (·.1)).Nodup) :
    (record.insertAll entries).fields = record.fields ++ entries := by
  induction entries generalizing record with
  | nil => simp [insertAll]
  | cons entry entries ih =>
    have hnew : entry.1 ∉ record.fields.map (·.1) := by
      intro hmem
      rw [List.map_append, List.map_cons] at h
      exact (List.nodup_append.mp h).2.2 _ hmem _ List.mem_cons_self rfl
    have hinsert : (record.insert entry.1 entry.2).fields = record.fields ++ [entry] :=
      Value.setMember_new hnew
    have hrest := ih (record.insert entry.1 entry.2) (by simpa [hinsert] using h)
    rw [hinsert, List.append_assoc, List.singleton_append] at hrest
    exact hrest

theorem names_entries (fields : List (String × FieldSpec)) (arguments : List String) :
    (entries fields arguments).map (·.1) = (fields.map (·.1)).take arguments.length := by
  induction fields generalizing arguments with
  | nil => simp [entries]
  | cons entry fields ih =>
    cases arguments with
    | nil => rfl
    | cons text arguments => exact congrArg (entry.1 :: ·) (ih arguments)

theorem nodup_entries (h : (fields.map (·.1)).Nodup) (arguments : List String) :
    ((entries fields arguments).map (·.1)).Nodup := by
  rw [names_entries]
  exact h.sublist (List.take_sublist _ _)

/-- Below a field's name stands the value of its own argument. -/
theorem member?_entries {name : String} {field : FieldSpec} (hnames : (fields.map (·.1)).Nodup)
    (hfield : fields[i]? = some (name, field)) :
    Value.member? name (entries fields arguments) = arguments[i]?.map (meaning field.type) := by
  induction fields generalizing arguments i with
  | nil => simp at hfield
  | cons entry fields ih =>
    obtain ⟨hother, hrest⟩ := List.nodup_cons.mp hnames
    cases arguments with
    | nil => simp [entries, Value.member?]
    | cons text arguments =>
      cases i with
      | zero =>
        obtain rfl : entry = (name, field) := by simpa using hfield
        simp [entries, Value.member?]
      | succ i =>
        have hlater : fields[i]? = some (name, field) := by simpa using hfield
        have hne : entry.1 ≠ name := by
          rintro rfl
          exact hother (List.mem_map.mpr ⟨_, List.mem_of_getElem? hlater, rfl⟩)
        have hstep : Value.member? name (entries (entry :: fields) (text :: arguments)) =
            Value.member? name (entries fields arguments) := if_neg hne
        rw [hstep, ih hrest hlater, List.getElem?_cons_succ]

/-! ## Arguments no field takes -/

theorem coerceFields_append (h : fields.length ≤ arguments.length) (more : List String)
    (record : Input) : coerceFields strict fields (arguments ++ more) record =
      coerceFields strict fields arguments record := by
  induction fields generalizing arguments record with
  | nil => rfl
  | cons entry fields ih =>
    cases arguments with
    | nil => simp at h
    | cons text arguments =>
      have hrest : fields.length ≤ arguments.length := by simpa using h
      simp only [List.cons_append, coerceFields, ih hrest]

/-! ## The two rules for numbers -/

/-- What the lenient reading refuses, the strict one refuses as well. -/
theorem Refuses.of_lenient (h : Refuses false fields arguments i e) :
    Refuses true fields arguments i e := by
  obtain ⟨hfield, hargument, hrequired⟩ | ⟨-, -, hstrict, -⟩ := h
  · exact .missing hfield hargument hrequired
  · exact absurd hstrict Bool.false_ne_true

/-! ## A schema -/

theorem coerce_eq_ok_iff {schema : Schema} (hnames : schema.names.Nodup) {record : Input} :
    coerce schema arguments strict = .ok record ↔
      (∀ i e, ¬ Refuses strict schema.fields arguments i e) ∧
        record = ⟨entries schema.fields arguments⟩ := by
  have hfields : (Input.empty.insertAll (entries schema.fields arguments)).fields =
      entries schema.fields arguments := fields_insertAll .empty (nodup_entries hnames arguments)
  have hrecord : Input.empty.insertAll (entries schema.fields arguments) =
      ⟨entries schema.fields arguments⟩ := congrArg Input.mk hfields
  rw [coerce, (coerceFields_spec strict schema.fields arguments .empty).2, hrecord]

theorem get?_of_coerce {schema : Schema} (hnames : schema.names.Nodup) {record : Input}
    (hok : coerce schema arguments strict = .ok record) {name : String} {field : FieldSpec}
    (hfield : schema.fields[i]? = some (name, field)) :
    record.get? name = arguments[i]?.map (meaning field.type) := by
  obtain ⟨-, rfl⟩ := (coerce_eq_ok_iff hnames).mp hok
  exact member?_entries hnames hfield

theorem holds_iff {record : Input} :
    Holds fields arguments record ↔ record = ⟨entries fields arguments⟩ := by
  constructor
  · intro h
    refine congrArg Input.mk (List.ext_getElem? fun i => ?_)
    rw [entries, List.getElem?_zipWith]
    cases hfield : fields[i]? with
    | none =>
      have hle := List.getElem?_eq_none_iff.mp hfield
      have hsize : record.fields.length = _ := h.size
      rw [List.getElem?_eq_none (by omega)]
    | some entry =>
      cases hargument : arguments[i]? with
      | none =>
        have hle := List.getElem?_eq_none_iff.mp hargument
        have hsize : record.fields.length = _ := h.size
        rw [List.getElem?_eq_none (by omega)]
      | some text =>
        obtain ⟨value, hvalue, hmeans⟩ := h.entry i entry.1 entry.2 text hfield hargument
        rw [hvalue, means_iff.mp hmeans]
  · rintro rfl
    refine ⟨List.length_zipWith, fun i name field text hfield hargument => ?_⟩
    refine ⟨meaning field.type text, ?_, means_iff.mpr rfl⟩
    simp only [entries, List.getElem?_zipWith, hfield, hargument]

/-- The argument at an index belongs to the field at that index. The first field that cannot be
filled refuses the arguments, and otherwise the record has the fields that have an argument, each
with the one value that its argument means under its type. Surplus arguments change nothing, and
where the strict reading succeeds, the lenient one gives the same record. -/
theorem coerce_positional {schema : Schema} (hnames : schema.names.Nodup)
    (arguments : List String) (strict : Bool) :
    (∀ e, coerce schema arguments strict = .error e ↔
      ∃ i, RefusesFirst strict schema.fields arguments i e) ∧
    (∀ record, coerce schema arguments strict = .ok record ↔
      (∀ i e, ¬ Refuses strict schema.fields arguments i e) ∧
        Holds schema.fields arguments record) ∧
    (∀ type text, ∃! value, Means type text value) ∧
    (∀ record : Input, coerce schema arguments strict = .ok record →
      ∀ (i : Nat) name (field : FieldSpec), schema.fields[i]? = some (name, field) →
        (arguments[i]? = none → record.get? name = none) ∧
        ∀ text, arguments[i]? = some text →
          ∃ value, record.get? name = some value ∧ Means field.type text value) ∧
    (∀ more, schema.size ≤ arguments.length →
      coerce schema (arguments ++ more) strict = coerce schema arguments strict) ∧
    ∀ record, coerce schema arguments true = .ok record →
      coerce schema arguments false = .ok record := by
  refine ⟨(coerceFields_spec strict schema.fields arguments .empty).1, ?_, existsUnique_means,
    ?_, ?_, ?_⟩
  · intro record
    rw [coerce_eq_ok_iff hnames, holds_iff]
  · intro record hok i name field hfield
    have hget := get?_of_coerce hnames hok hfield
    refine ⟨fun hargument => by rw [hget, hargument, Option.map_none], fun text hargument => ?_⟩
    rw [hget, hargument]
    exact ⟨_, rfl, means_iff.mpr rfl⟩
  · intro more hlength
    exact coerceFields_append hlength more .empty
  · intro record hok
    obtain ⟨hfilled, rfl⟩ := (coerce_eq_ok_iff hnames).mp hok
    exact (coerce_eq_ok_iff hnames).mpr ⟨fun i e he => hfilled i e he.of_lenient, rfl⟩

def searchFields : Schema :=
  ⟨[("tags", .optional .array), ("least", .mandatory .number), ("most", .mandatory .number),
    ("query", .mandatory .string), ("deep", .optional .boolean)]⟩

/-- A text that is no number is refused before the missing field after it. To the lenient reading it
is zero, and the missing field is what is refused, until there is an argument for it. -/
theorem coerce_number_before_missing :
    coerce searchFields ["a b, ,c", " -2.50e1\t", "ten"] true =
        .error (.invalidNumber "most" "ten") ∧
      coerce searchFields ["a b, ,c", " -2.50e1\t", "ten"] false = .error (.missing "query") ∧
      (let arguments := ["a b, ,c", " -2.50e1\t", "ten", " x ", "tRuE", "more"]
      let record : Input := ⟨[("tags", .strings ["a b", "", "c"]),
        ("least", .number (.integer (-25))), ("most", .number (.integer 0)),
        ("query", .string " x "), ("deep", .bool true)]⟩
      coerce searchFields arguments false = .ok record ∧
        Holds searchFields.fields arguments record ∧
        Means .array "a b, ,c" (.strings ["a b", "", "c"]) ∧
        Means .number " -2.50e1\t" (.number (.integer (-25)))) := by
  have hnames : searchFields.names.Nodup := by decide
  have hleast : Argument.number? " -2.50e1\t" = some (.integer (-25)) := by decide +kernel
  have hmost : Argument.number? "ten" = none := by decide
  have htags : ∀ strict, ¬ NotNumber strict .array "a b, ,c" := fun _ h => nomatch h.2.1
  have hread : ∀ strict, ¬ NotNumber strict .number " -2.50e1\t" := fun _ h =>
    h.2.2 _ (Argument.number?_eq_some_iff.mp hleast)
  have hrefused := Argument.number?_eq_none_iff.mp hmost
  refine ⟨?_, ?_, ?_⟩
  · apply ((coerce_positional hnames _ true).1 _).mpr
    refine ⟨2, .notNumber rfl rfl ⟨rfl, rfl, hrefused⟩, fun j hj e => ?_⟩
    match j with
    | 0 => exact not_refuses_of_argument rfl rfl (htags true)
    | 1 => exact not_refuses_of_argument rfl rfl (hread true)
  · apply ((coerce_positional hnames _ false).1 _).mpr
    refine ⟨3, .missing rfl rfl rfl, fun j hj e => ?_⟩
    match j with
    | 0 => exact not_refuses_of_argument rfl rfl (htags false)
    | 1 => exact not_refuses_of_argument rfl rfl (hread false)
    | 2 => exact not_refuses_of_argument rfl rfl fun h => Bool.false_ne_true h.1
  · intro arguments record
    have hok : coerce searchFields arguments false = .ok record := by
      simp only [arguments, searchFields, coerce, coerceFields, Argument.value, hleast, hmost]
      rfl
    obtain ⟨-, hrecord, -, hvalues, -⟩ := coerce_positional hnames arguments false
    obtain ⟨v, htag, htagged⟩ := (hvalues record hok 0 "tags" _ rfl).2 _ rfl
    obtain ⟨w, hnumber, hnumbered⟩ := (hvalues record hok 1 "least" _ rfl).2 _ rfl
    cases htag
    cases hnumber
    exact ⟨hok, ((hrecord record).mp hok).2, htagged, hnumbered⟩

end Input
end Agentry
