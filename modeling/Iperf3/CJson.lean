import Iperf3.Binary64
import Mathlib.Tactic

/-!
# Parsed JSON trees

The tree that the vendored parser hands to the program.  Object members keep
their order, duplicates included, because a lookup returns the first match.
Member names are compared without regard to ASCII case everywhere in the
program, so a name is represented by a key type that already identifies the
spellings of one name.
-/

inductive CJson (κ : Type) where
  | null
  | bool (value : Bool)
  | number (valuedouble : ℚ)
  | string (valuestring : String)
  | array (items : List (CJson κ))
  | object (members : List (κ × CJson κ))

namespace CJson

variable {κ : Type}

/-- The item types a caller may ask for.  A request for `true` accepts either
Boolean. -/
inductive ItemType where
  | true
  | string
  | number
  | array
  deriving DecidableEq, Repr

def hasType : CJson κ → ItemType → Bool
  | .bool _, .true => Bool.true
  | .string _, .string => Bool.true
  | .number _, .number => Bool.true
  | .array _, .array => Bool.true
  | _, _ => Bool.false

/-- Truncation of a number to 64 bits, saturating at both ends. -/
def saturate (value : ℚ) : ℤ :=
  if 9223372036854775808 ≤ value then 9223372036854775807
  else if value ≤ -9223372036854775808 then -9223372036854775808
  else value.num.tdiv value.den

def valueint : CJson κ → ℤ
  | .number value => saturate value
  | .bool Bool.true => 1
  | _ => 0

def valuedouble : CJson κ → ℚ
  | .number value => value
  | _ => 0

def valuestring : CJson κ → String
  | .string value => value
  | _ => ""

/-! ## Re-reading -/

mutual

/-- The tree with every number replaced. -/
def mapNumbers (f : ℚ → ℚ) : CJson κ → CJson κ
  | .null => .null
  | .bool value => .bool value
  | .number value => .number (f value)
  | .string value => .string value
  | .array items => .array (mapItems f items)
  | .object members => .object (mapMembers f members)

def mapItems (f : ℚ → ℚ) : List (CJson κ) → List (CJson κ)
  | [] => []
  | item :: items => mapNumbers f item :: mapItems f items

def mapMembers (f : ℚ → ℚ) : List (κ × CJson κ) → List (κ × CJson κ)
  | [] => []
  | (key, item) :: members => (key, mapNumbers f item) :: mapMembers f members

end

/-- What printing and parsing a number does: integers up to `2 ^ 53` come back
unchanged, and no other number is promised to. -/
def KeepsIntegers (f : ℚ → ℚ) : Prop :=
  ∀ n : ℤ, |n| ≤ 2 ^ 53 → f n = n

/-! ## Lookups -/

section Lookup

variable [DecidableEq κ]

def getObjectItem : CJson κ → κ → Option (CJson κ)
  | .object members, key => members.lookup key
  | _, _ => none

/-- Look a member up and keep it only when it has the expected type. -/
def getObjectItemType (j : CJson κ) (key : κ) (expected : ItemType) :
    Option (CJson κ) :=
  (j.getObjectItem key).filter fun item => item.hasType expected

def numberItem (j : CJson κ) (key : κ) : Option ℤ :=
  (j.getObjectItemType key .number).map valueint

def stringItem (j : CJson κ) (key : κ) : Option String :=
  (j.getObjectItemType key .string).map valuestring

/-- Presence of a Boolean member, whatever its value. -/
def boolItem (j : CJson κ) (key : κ) : Bool :=
  (j.getObjectItemType key .true).isSome

end Lookup

/-- The item made for an integer, which passes through a double. -/
def ofInt (n : ℤ) : CJson κ :=
  .number (Binary64.roundDouble n)

theorem saturate_intCast {n : ℤ} (hn : |n| ≤ 2 ^ 53) :
    saturate n = n := by
  have hbound := abs_le.mp hn
  have hlow : -9223372036854775808 < n := by
    norm_num at hbound
    omega
  have hhigh : n < 9223372036854775808 := by
    norm_num at hbound
    omega
  have hnotHigh : ¬ (9223372036854775808 : ℚ) ≤ n := by
    exact_mod_cast not_le.mpr hhigh
  have hnotLow : ¬ (n : ℚ) ≤ -9223372036854775808 := by
    exact_mod_cast not_le.mpr hlow
  simp [saturate, hnotHigh, hnotLow]

/-- Integers up to `2 ^ 53` survive the passage through a double. -/
@[simp]
theorem valueint_ofInt {n : ℤ} (hn : |n| ≤ 2 ^ 53) :
    (ofInt n : CJson κ).valueint = n := by
  simp only [ofInt, valueint, Binary64.roundDouble_intCast hn,
    saturate_intCast hn]

/-! ## Lookups in a re-read tree -/

theorem lookup_mapMembers [DecidableEq κ]
    (f : ℚ → ℚ) (members : List (κ × CJson κ)) (key : κ) :
    (mapMembers f members).lookup key =
      (members.lookup key).map (mapNumbers f) := by
  induction members with
  | nil => rfl
  | cons member members ih =>
      obtain ⟨name, item⟩ := member
      rw [mapMembers, List.lookup_cons, List.lookup_cons]
      cases key == name with
      | true => rfl
      | false => exact ih

@[simp]
theorem hasType_mapNumbers (f : ℚ → ℚ) (j : CJson κ) (expected : ItemType) :
    (j.mapNumbers f).hasType expected = j.hasType expected := by
  cases j <;> cases expected <;> rfl

theorem getObjectItem_mapNumbers [DecidableEq κ]
    (f : ℚ → ℚ) (j : CJson κ) (key : κ) :
    (j.mapNumbers f).getObjectItem key = (j.getObjectItem key).map (mapNumbers f) := by
  cases j with
  | object members => exact lookup_mapMembers f members key
  | _ => rfl

theorem getObjectItemType_mapNumbers [DecidableEq κ]
    (f : ℚ → ℚ) (j : CJson κ) (key : κ) (expected : ItemType) :
    (j.mapNumbers f).getObjectItemType key expected =
      (j.getObjectItemType key expected).map (mapNumbers f) := by
  unfold getObjectItemType
  rw [getObjectItem_mapNumbers]
  cases j.getObjectItem key with
  | none => rfl
  | some item =>
      rw [Option.map_some, Option.filter_some, Option.filter_some, hasType_mapNumbers]
      cases item.hasType expected <;> rfl

theorem numberItem_mapNumbers [DecidableEq κ]
    {f : ℚ → ℚ} (hf : KeepsIntegers f) {j : CJson κ} {key : κ} {n : ℤ}
    (hitem : j.getObjectItem key = some (ofInt n)) (hn : |n| ≤ 2 ^ 53) :
    (j.mapNumbers f).numberItem key = some n := by
  have htype : j.getObjectItemType key .number = some (ofInt n) := by
    unfold getObjectItemType
    rw [hitem]
    rfl
  unfold numberItem
  rw [getObjectItemType_mapNumbers, htype, Option.map_some, Option.map_some, ofInt,
    mapNumbers, valueint, Binary64.roundDouble_intCast hn, hf n hn,
    saturate_intCast hn]

theorem mapItems_eq_map (f : ℚ → ℚ) (items : List (CJson κ)) :
    mapItems f items = items.map (mapNumbers f) := by
  induction items with
  | nil => rfl
  | cons item items ih => rw [mapItems, List.map_cons, ih]

end CJson
