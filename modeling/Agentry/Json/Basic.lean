import Agentry.Decimal.Binary64
/-!
# JSON values

The members of an object keep the order in which their names first came; no two have one name. A
number is a 64-bit integer or a finite double.
-/
namespace Agentry.Json

inductive Number where
  | integer (n : Int)
  | float (x : Decimal.Binary64)
  deriving DecidableEq, Repr

inductive Value where
  | null
  | bool (b : Bool)
  | number (n : Number)
  | string (s : String)
  | array (items : List Value)
  | object (members : List (String × Value))

namespace Value

def ofNat (n : Nat) : Value := .number (.integer n)

def ofInt (n : Int) : Value := .number (.integer n)

def strings (items : List String) : Value := .array (items.map .string)

/-- A member set: in place when the name is there, at the end when it is new. -/
def setMember (name : String) (value : Value) :
    List (String × Value) → List (String × Value)
  | [] => [(name, value)]
  | (n, v) :: rest =>
    if n = name then (n, value) :: rest else (n, v) :: setMember name value rest

def member? (name : String) : List (String × Value) → Option Value
  | [] => none
  | (n, v) :: rest => if n = name then some v else member? name rest

def get? (name : String) : Value → Option Value
  | .object members => member? name members
  | _ => none

theorem setMember_new {name : String} {value : Value} {members : List (String × Value)}
    (h : name ∉ members.map (·.1)) :
    setMember name value members = members ++ [(name, value)] := by
  induction members with
  | nil => rfl
  | cons head rest ih =>
    obtain ⟨n, v⟩ := head
    obtain ⟨hhead, hrest⟩ : name ≠ n ∧ name ∉ rest.map (·.1) := by simpa using h
    rw [setMember, if_neg (Ne.symm hhead), ih hrest, List.cons_append]

theorem member?_setMember_self (name : String) (value : Value) (members : List (String × Value)) :
    member? name (setMember name value members) = some value := by
  induction members with
  | nil => simp [setMember, member?]
  | cons head rest ih =>
    obtain ⟨n, v⟩ := head
    by_cases h : n = name <;> simp [setMember, member?, h, ih]

theorem member?_setMember_other {name other : String} (value : Value)
    (members : List (String × Value)) (h : other ≠ name) :
    member? other (setMember name value members) = member? other members := by
  induction members with
  | nil => simp [setMember, member?, Ne.symm h]
  | cons head rest ih =>
    obtain ⟨n, v⟩ := head
    by_cases hn : n = name
    · subst hn
      simp [setMember, member?, Ne.symm h]
    · by_cases ho : n = other
      · subst ho
        simp [setMember, member?, h]
      · simp [setMember, member?, hn, ho, ih]

end Value
end Agentry.Json
