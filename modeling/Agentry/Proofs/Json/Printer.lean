import Agentry.Proofs.Json.Grammar
/-!
# Values written and read back

The document that a value's text reads as is the value itself as a document. Its numbers are the
numerals that their texts spell. Texts of integral values are written by the grammar, in both
layouts, so two such values with one text are equal.
-/
namespace Agentry.Json

namespace Numeral

def ofInt (n : Int) : Numeral := ⟨decide (n < 0), decimalDigits n.natAbs, none, none⟩

theorem isDigit_of_mem_decimalDigits {k : Nat} {c : Char} (h : c ∈ decimalDigits k) :
    isDigit c = true := by
  have hdigit := Nat.isDigit_of_mem_toDigits (by decide) (by decide) h
  simp only [Char.isDigit, Bool.and_eq_true, decide_eq_true_eq, UInt32.le_iff_toNat_le] at hdigit
  simp only [isDigit, Bool.and_eq_true, decide_eq_true_eq]
  exact hdigit

theorem digitsValue_decimalDigits (k : Nat) : digitsValue (decimalDigits k) = k := by
  have hvalue := Nat.ofDigitChars_ten_toDigits (n := k)
  simpa [digitsValue, decimalDigits, Nat.ofDigitChars, digitValue, Nat.mul_comm] using hvalue

theorem wholeText_decimalDigits (n : Nat) : WholeText (decimalDigits n) := by
  suffices h : n ≠ 0 → ∃ c ds, decimalDigits n = c :: ds ∧ c ≠ '0' by
    by_cases hn : n = 0
    · subst hn
      exact .zero
    · obtain ⟨c, ds, heq, hc⟩ := h hn
      have hall : ∀ d ∈ decimalDigits n, isDigit d = true := fun d => isDigit_of_mem_decimalDigits
      rw [heq] at hall ⊢
      exact .digits hc (hall c List.mem_cons_self) fun d hd => hall d (List.mem_cons_of_mem c hd)
  induction n using Nat.strongRecOn with
  | ind n ih =>
    intro hn
    by_cases hlt : n < 10
    · have hcases : ∀ m : Fin 10, m.val ≠ 0 → Nat.digitChar m.val ≠ '0' := by decide
      exact ⟨_, [], Nat.toDigits_of_lt_base hlt, hcases ⟨n, hlt⟩ hn⟩
    · obtain ⟨c, ds, heq, hc⟩ := ih (n / 10) (by omega) (by omega)
      refine ⟨c, ds ++ [Nat.digitChar (n % 10)], ?_, hc⟩
      rw [decimalDigits, Nat.toDigits_of_base_le (by decide) (by omega)]
      rw [decimalDigits] at heq
      rw [heq, List.cons_append]

theorem numeralText_integerText (n : Int) : NumeralText (ofInt n) (integerText n) := by
  have hw := wholeText_decimalDigits n.natAbs
  unfold integerText ofInt
  split
  · rename_i hn
    have h := NumeralText.negative hw .none .none
    simpa [hn] using h
  · rename_i hn
    have h := NumeralText.positive hw .none .none
    simpa [hn] using h

theorem ofInt_injective {m n : Int} (h : ofInt m = ofInt n) : m = n := by
  obtain ⟨hsign, hdigits, _, _⟩ := Numeral.mk.inj h
  have habs := congrArg (Nat.ofDigitChars 10 · 0) hdigits
  simp only [decimalDigits, Nat.ofDigitChars_ten_toDigits] at habs
  have hiff : m < 0 ↔ n < 0 := by simpa using hsign
  omega

end Numeral

namespace Value

mutual

/-- Whether every number in a value is an integer. -/
def Integral : Value → Prop
  | .number n => ∃ i, n = .integer i
  | .array items => IntegralItems items
  | .object members => IntegralMembers members
  | _ => True

def IntegralItems : List Value → Prop
  | [] => True
  | item :: rest => item.Integral ∧ IntegralItems rest

def IntegralMembers : List (String × Value) → Prop
  | [] => True
  | (_, value) :: rest => value.Integral ∧ IntegralMembers rest

end

theorem integralItems_iff {items : List Value} :
    IntegralItems items ↔ ∀ item ∈ items, item.Integral := by
  induction items with
  | nil => simp [IntegralItems]
  | cons item rest ih => simp [IntegralItems, ih]

theorem integralMembers_iff {members : List (String × Value)} :
    IntegralMembers members ↔ ∀ member ∈ members, member.2.Integral := by
  induction members with
  | nil => simp [IntegralMembers]
  | cons member rest ih => simp [IntegralMembers, ih]

end Value

namespace Node

mutual

/-- A value as a document. -/
def ofValue : Value → Node
  | .null => .null
  | .bool b => .bool b
  | .number n => (ofNumeral? (Numeral.read n.text)).1
  | .string s => .string (some s)
  | .array items => .array (ofItems items)
  | .object members => .object (ofMembers members)

def ofItems : List Value → List Node
  | [] => []
  | item :: rest => ofValue item :: ofItems rest

def ofMembers : List (String × Value) → List (Option String × Node)
  | [] => []
  | (name, value) :: rest => (some name, ofValue value) :: ofMembers rest

end

theorem ofValue_integer (n : Int) :
    ofValue (.number (.integer n)) = .number (Numeral.ofInt n) := by
  have hends : Numeral.Ends [] := by
    intro c hc
    cases hc
  have hread := (Numeral.numeralText_integerText n).read_append hends
  rw [List.append_nil] at hread
  simp only [ofValue, Number.text, hread, ofNumeral?]

end Node

/-! ## The compact text -/

theorem written_quote (s : String) : Written (.node (.string (some s))) (quote s) := by
  have h := Written.string (stringBody_quoteBody s.toList)
  rw [joinPieces_char, Option.map_some, String.ofList_toList] at h
  have hquote := quote_append s []
  rw [List.append_nil] at hquote
  rwa [hquote]

theorem nameText_quote (s : String) {gap : List Char} (hgap : Blank gap) :
    NameText (some s) (quote s ++ (gap ++ [':'])) := by
  have h := NameText.intro (stringBody_quoteBody s.toList) hgap
  rw [joinPieces_char, Option.map_some, String.ofList_toList] at h
  rwa [quote_append]

namespace Value

mutual

theorem written_compact : ∀ v : Value, v.Integral → Written (.node (Node.ofValue v)) v.compact
  | .null, _ => .null
  | .bool b, _ => .bool b
  | .number n, h => by
    obtain ⟨i, rfl⟩ := h
    rw [Node.ofValue_integer]
    exact .number (Numeral.numeralText_integerText i)
  | .string s, _ => written_quote s
  | .array [], _ => .emptyArray blank_nil
  | .array (item :: rest), h => .array (written_compactItems (item :: rest) h (by simp))
  | .object [], _ => .emptyObject blank_nil
  | .object (member :: rest), h => .object (written_compactMembers (member :: rest) h (by simp))

theorem written_compactItems : ∀ items : List Value, IntegralItems items → items ≠ [] →
    Written (.items (Node.ofItems items)) (compactItems items)
  | [], _, hne => absurd rfl hne
  | [item], h, _ => .lastItem blank_nil (written_compact item h.1) blank_nil
  | item :: next :: rest, h, _ =>
    .moreItems blank_nil (written_compact item h.1) blank_nil
      (written_compactItems (next :: rest) h.2 (by simp))

theorem written_compactMembers : ∀ members : List (String × Value), IntegralMembers members →
    members ≠ [] → Written (.members (Node.ofMembers members)) (compactMembers members)
  | [], _, hne => absurd rfl hne
  | [(name, value)], h, _ => by
    have hw := Written.lastMember blank_nil (nameText_quote name blank_nil) blank_nil
      (written_compact value h.1) blank_nil
    simpa [compactMembers, compactMoreMembers, Node.ofMembers] using hw
  | (name, value) :: (next, v) :: rest, h, _ => by
    have hmore := written_compactMembers ((next, v) :: rest) h.2 (by simp)
    have hw := Written.moreMembers blank_nil (nameText_quote name blank_nil) blank_nil
      (written_compact value h.1) blank_nil hmore
    simpa [compactMembers, compactMoreMembers, Node.ofMembers] using hw

end

/-! ## The pretty text -/

theorem blank_newline (level : Nat) : Blank (newline level) := by
  intro c hc
  rcases List.mem_cons.mp hc with rfl | hc
  · rfl
  · rw [(List.mem_replicate.mp hc).2]
    rfl

mutual

theorem written_prettyAt : ∀ (level : Nat) (v : Value), v.Integral →
    Written (.node (Node.ofValue v)) (v.prettyAt level)
  | _, .null, _ => .null
  | _, .bool b, _ => .bool b
  | _, .number n, h => by
    obtain ⟨i, rfl⟩ := h
    rw [Node.ofValue_integer]
    exact .number (Numeral.numeralText_integerText i)
  | _, .string s, _ => written_quote s
  | _, .array [], _ => .emptyArray blank_nil
  | level, .array (item :: rest), h => by
    have hitem := written_prettyAt (level + 1) item h.1
    have hw := Written.array (written_prettyItems level hitem rest h.2)
    simpa [prettyAt, Node.ofValue, Node.ofItems] using hw
  | _, .object [], _ => .emptyObject blank_nil
  | level, .object ((name, value) :: rest), h => by
    have hvalue := written_prettyAt (level + 1) value h.1
    have hw := Written.object (written_prettyMembers level name hvalue rest h.2)
    simpa [prettyAt, Node.ofValue, Node.ofMembers] using hw

/-- The items behind the one that was written last. -/
theorem written_prettyItems (level : Nat) {n : Node} {t : List Char} (ht : Written (.node n) t) :
    ∀ rest : List Value, IntegralItems rest →
      Written (.items (n :: Node.ofItems rest))
        (newline (level + 1) ++ (t ++ (prettyItems (level + 1) rest ++ (newline level ++ [']']))))
  | [], _ => .lastItem (blank_newline _) ht (blank_newline _)
  | item :: rest, h => by
    have hitem := written_prettyAt (level + 1) item h.1
    have hw := Written.moreItems (blank_newline (level + 1)) ht blank_nil
      (written_prettyItems level hitem rest h.2)
    simpa [prettyItems, Node.ofItems] using hw

/-- The members behind the one that was written last. -/
theorem written_prettyMembers (level : Nat) (name : String) {n : Node} {t : List Char}
    (ht : Written (.node n) t) :
    ∀ rest : List (String × Value), IntegralMembers rest →
      Written (.members ((some name, n) :: Node.ofMembers rest))
        (newline (level + 1) ++ (quote name ++ ':' :: ' ' :: (t ++
          (prettyMembers (level + 1) rest ++ (newline level ++ ['}'])))))
  | [], _ => by
    have hw := Written.lastMember (blank_newline (level + 1)) (nameText_quote name blank_nil)
      blank_space ht (blank_newline level)
    simpa [prettyMembers, Node.ofMembers] using hw
  | (next, value) :: rest, h => by
    have hvalue := written_prettyAt (level + 1) value h.1
    have hw := Written.moreMembers (blank_newline (level + 1)) (nameText_quote name blank_nil)
      blank_space ht blank_nil (written_prettyMembers level next hvalue rest h.2)
    simpa [prettyMembers, Node.ofMembers] using hw

end
variable {α : Type} {decode : Decoder α} {v : Value} {a : α}

theorem decode_text (hv : v.Integral) (ha : decode depthLimit (Node.ofValue v) = .ok a) :
    Json.decode decode v.text = .ok a := by
  have hdecode := decode_written (written_compact v hv) blank_nil ha
  rwa [List.append_nil] at hdecode

theorem decode_prettyText (hv : v.Integral) (ha : decode depthLimit (Node.ofValue v) = .ok a) :
    Json.decode decode v.prettyText = .ok a := by
  have hdecode := decode_written (written_prettyAt 0 v hv) blank_nil ha
  rwa [List.append_nil] at hdecode

/-- A value on lines of its own, as it is shown. -/
theorem decode_prettyText_line (hv : v.Integral) (ha : decode depthLimit (Node.ofValue v) = .ok a) :
    Json.decode decode (v.prettyText ++ "\n") = .ok a := by
  have hdecode := decode_written (written_prettyAt 0 v hv) (blank_newline 0) ha
  rwa [String.ofList_append] at hdecode

/-! ## Values known from their documents -/

mutual

theorem intact_ofValue : ∀ v : Value, v.Integral → (Node.ofValue v).intact = true
  | .null, _ => rfl
  | .bool _, _ => rfl
  | .number n, h => by
    obtain ⟨i, rfl⟩ := h
    rw [Node.ofValue_integer]
    rfl
  | .string _, _ => rfl
  | .array items, h => intactItems_ofItems items h
  | .object members, h => intactMembers_ofMembers members h

theorem intactItems_ofItems : ∀ items : List Value, IntegralItems items →
    Node.intactItems (Node.ofItems items) = true
  | [], _ => rfl
  | item :: rest, h => by
    simp [Node.ofItems, Node.intactItems, intact_ofValue item h.1, intactItems_ofItems rest h.2]

theorem intactMembers_ofMembers : ∀ members : List (String × Value), IntegralMembers members →
    Node.intactMembers (Node.ofMembers members) = true
  | [], _ => rfl
  | (name, value) :: rest, h => by
    simp [Node.ofMembers, Node.intactMembers, intact_ofValue value h.1,
      intactMembers_ofMembers rest h.2]

end

mutual

/-- A value with integers alone is known from its document. -/
theorem ofValue_injective : ∀ v w : Value, v.Integral → w.Integral →
    Node.ofValue v = Node.ofValue w → v = w
  | v, .null, hv, _, h => by
    cases v with
    | null => rfl
    | number n =>
      obtain ⟨i, rfl⟩ := hv
      cases (Node.ofValue_integer i).symm.trans h
    | _ => cases h
  | v, .bool b, hv, _, h => by
    cases v with
    | bool a => rw [Node.bool.inj h]
    | number n =>
      obtain ⟨i, rfl⟩ := hv
      cases (Node.ofValue_integer i).symm.trans h
    | _ => cases h
  | v, .string s, hv, _, h => by
    cases v with
    | string t => rw [Option.some.inj (Node.string.inj h)]
    | number n =>
      obtain ⟨i, rfl⟩ := hv
      cases (Node.ofValue_integer i).symm.trans h
    | _ => cases h
  | v, .number n, hv, hw, h => by
    obtain ⟨j, rfl⟩ := hw
    rw [Node.ofValue_integer] at h
    cases v with
    | number m =>
      obtain ⟨i, rfl⟩ := hv
      rw [Node.ofValue_integer] at h
      rw [Numeral.ofInt_injective (Node.number.inj h)]
    | _ => cases h
  | v, .array items, hv, hw, h => by
    cases v with
    | array others => rw [ofItems_injective others items hv hw (Node.array.inj h)]
    | number n =>
      obtain ⟨i, rfl⟩ := hv
      cases (Node.ofValue_integer i).symm.trans h
    | _ => cases h
  | v, .object members, hv, hw, h => by
    cases v with
    | object others => rw [ofMembers_injective others members hv hw (Node.object.inj h)]
    | number n =>
      obtain ⟨i, rfl⟩ := hv
      cases (Node.ofValue_integer i).symm.trans h
    | _ => cases h

theorem ofItems_injective : ∀ vs ws : List Value, IntegralItems vs → IntegralItems ws →
    Node.ofItems vs = Node.ofItems ws → vs = ws
  | [], [], _, _, _ => rfl
  | v :: vs, w :: ws, hv, hw, h => by
    obtain ⟨hhead, htail⟩ := List.cons.inj h
    rw [ofValue_injective v w hv.1 hw.1 hhead, ofItems_injective vs ws hv.2 hw.2 htail]

theorem ofMembers_injective : ∀ vs ws : List (String × Value), IntegralMembers vs →
    IntegralMembers ws → Node.ofMembers vs = Node.ofMembers ws → vs = ws
  | [], [], _, _, _ => rfl
  | (m, v) :: vs, (n, w) :: ws, hv, hw, h => by
    obtain ⟨hhead, htail⟩ := List.cons.inj h
    obtain ⟨hname, hvalue⟩ := Prod.mk.inj hhead
    rw [Option.some.inj hname, ofValue_injective v w hv.1 hw.1 hvalue,
      ofMembers_injective vs ws hv.2 hw.2 htail]

end

/-- Two values with one text are equal. -/
theorem eq_of_compact_eq {v w : Value} (hv : v.Integral) (hw : w.Integral)
    (h : v.compact = w.compact) : v = w := by
  have hends := Node.ends_of_blank blank_nil
  have hreadv := Node.readFrom_of_written (written_compact v hv) _ [] (Nat.le_refl _) hends
  have hreadw := Node.readFrom_of_written (written_compact w hw) _ [] (Nat.le_refl _) hends
  rw [← h] at hreadw
  exact ofValue_injective v w hv hw (Prod.mk.inj (hreadv.symm.trans hreadw)).1

end Value
end Agentry.Json
