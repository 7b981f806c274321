import Runtrue.Base.Collect
import Runtrue.Base.Json
import Runtrue.Base.Text

/-!
# JSON values as texts

The compact text of a value, as a JSON library prints it, and the value with the members of its objects in the
order of their keys. `weight a b` weighs a value: `b` for each value inside it and `a` for each byte of its
strings and keys. The number of values and the bytes of the strings are two such weights, and a third one bounds the
printed text (`length_render_le`). Sorting the members lowers none of them (`weight_sortKeys_le`).
-/

namespace Json

open List BTreeMap

/-! ### Printing -/

/-- The byte of a lower-case hexadecimal digit. -/
def hexByte (digit : UInt8) : UInt8 := if digit < 10 then 48 + digit else 87 + digit

/-- Quotes, backslashes and control bytes are escaped. -/
def escape (byte : UInt8) : List UInt8 :=
  if byte = 34 then [92, 34]
  else if byte = 92 then [92, 92]
  else if byte = 8 then [92, 98]
  else if byte = 9 then [92, 116]
  else if byte = 10 then [92, 110]
  else if byte = 12 then [92, 102]
  else if byte = 13 then [92, 114]
  else if byte < 32 then [92, 117, 48, 48, hexByte (byte / 16), hexByte (byte % 16)]
  else [byte]

def quote (text : String) : List UInt8 := [34] ++ (Text.bytes text).flatMap escape ++ [34]

section
variable (showFloat : F64 → String)

def decimalBytes (n : Nat) : List UInt8 := (Nat.toDigits 10 n).map fun c => UInt8.ofNat c.toNat

def renderNumber : JsonNumber → List UInt8
  | .posInt value => decimalBytes value.toNat
  | .negInt value => [45] ++ decimalBytes value.toInt.natAbs
  | .float value => Text.bytes (showFloat value)

mutual

/-- The compact text of a value. -/
def render : Json → List UInt8
  | .null => Text.bytes "null"
  | .bool true => Text.bytes "true"
  | .bool false => Text.bytes "false"
  | .number value => renderNumber showFloat value
  | .string value => quote value
  | .array values => [91] ++ (renderAll values).drop 1 ++ [93]
  | .object members => [123] ++ (renderMembers members).drop 1 ++ [125]

/-- The values, each after a comma. -/
def renderAll : List Json → List UInt8
  | [] => []
  | value :: values => [44] ++ render value ++ renderAll values

def renderMembers : List (String × Json) → List UInt8
  | [] => []
  | (key, value) :: members => [44] ++ quote key ++ [58] ++ render value ++ renderMembers members

end

end

/-! ### The order of the members -/

mutual

/-- The members of every object, in the order of their keys. -/
def sortKeys : Json → Json
  | .array values => .array (sortAll values)
  | .object members => .object (sortMembers members ∅).toList
  | value => value

def sortAll : List Json → List Json
  | [] => []
  | value :: values => sortKeys value :: sortAll values

def sortMembers : List (String × Json) → BTreeMap String Json → BTreeMap String Json
  | [], members => members
  | (key, value) :: rest, members => sortMembers rest (members.insert key (sortKeys value))

end

/-! ### Weights -/

mutual

/-- The weight of a value: `b` for each value inside it and `a` for each byte of a string or key. -/
def weight (a b : Nat) : Json → Nat
  | .string value => b + a * value.utf8ByteSize
  | .array values => b + weightAll a b values
  | .object members => b + weightMembers a b members
  | _ => b

def weightAll (a b : Nat) : List Json → Nat
  | [] => 0
  | value :: values => weight a b value + weightAll a b values

def weightMembers (a b : Nat) : List (String × Json) → Nat
  | [] => 0
  | (key, value) :: members => a * key.utf8ByteSize + weight a b value + weightMembers a b members

end

mutual

/-- The value nests at most `depth` levels, its strings and keys have at most `length` bytes, and its numbers are
unsigned integers. -/
def Plain (length : Nat) : Nat → Json → Prop
  | _, .number (.posInt _) => True
  | _, .string value => value.utf8ByteSize ≤ length
  | depth + 1, .array values => PlainAll length depth values
  | depth + 1, .object members => PlainMembers length depth members
  | _, _ => False

def PlainAll (length : Nat) : Nat → List Json → Prop
  | _, [] => True
  | depth, value :: values => Plain length depth value ∧ PlainAll length depth values

def PlainMembers (length : Nat) : Nat → List (String × Json) → Prop
  | _, [] => True
  | depth, (key, value) :: members =>
    key.utf8ByteSize ≤ length ∧ Plain length depth value ∧ PlainMembers length depth members

end

/-! ### Lengths of texts -/

theorem utf8ByteSize_ofList (chars : List Char) :
    (String.ofList chars).utf8ByteSize = (chars.map Char.utf8Size).sum := by
  have h : (String.ofList chars).utf8ByteSize = (chars.flatMap String.utf8EncodeChar).toByteArray.size := rfl
  rw [h, size_toByteArray, length_flatMap]
  simp only [String.length_utf8EncodeChar]

theorem length_escape_le (byte : UInt8) : (escape byte).length ≤ 6 := by
  unfold escape
  split_ifs <;> simp

theorem length_quote_le (text : String) : (quote text).length ≤ 6 * text.utf8ByteSize + 2 := by
  have h := sum_le_card_nsmul ((Text.bytes text).map fun byte => (escape byte).length) 6 fun n hn => by
    obtain ⟨byte, -, rfl⟩ := mem_map.mp hn
    exact length_escape_le byte
  rw [length_map, smul_eq_mul, ← length_flatMap] at h
  have hlength : (Text.bytes text).length = text.utf8ByteSize := rfl
  simp only [quote, length_append, length_singleton]
  omega

theorem length_renderNumber_le (showFloat : F64 → String) (value : U64) :
    (renderNumber showFloat (.posInt value)).length ≤ 20 := by
  rw [renderNumber, decimalBytes, length_map]
  exact Nat.toDigits_length 10 _ 20 (by decide) (value.isLt.trans (by decide))

mutual

/-- A plain value prints in six bytes for each byte of its strings and 24 for each value, with four to spare for
the comma, the colon and the quotes of the key before it. -/
theorem length_render_le (showFloat : F64 → String) {length depth : Nat} :
    ∀ {value : Json}, Plain length depth value → (render showFloat value).length + 4 ≤ weight 6 24 value
  | .number (.posInt value), _ => by
    have h := length_renderNumber_le showFloat value
    simp only [render, weight]
    omega
  | .string value, _ => by
    have h := length_quote_le value
    simp only [render, weight]
    omega
  | .array values, h => by
    cases depth with
    | zero => exact h.elim
    | succ =>
      have h' : (renderAll showFloat values).length ≤ weightAll 6 24 values := length_renderAll_le showFloat h
      simp only [render, weight, length_append, length_drop, length_singleton]
      omega
  | .object members, h => by
    cases depth with
    | zero => exact h.elim
    | succ =>
      have h' : (renderMembers showFloat members).length ≤ weightMembers 6 24 members :=
        length_renderMembers_le showFloat h
      simp only [render, weight, length_append, length_drop, length_singleton]
      omega

theorem length_renderAll_le (showFloat : F64 → String) {length depth : Nat} :
    ∀ {values : List Json}, PlainAll length depth values → (renderAll showFloat values).length ≤ weightAll 6 24 values
  | [], _ => le_rfl
  | _ :: _, h => by
    have hvalue := length_render_le showFloat h.1
    have hvalues := length_renderAll_le showFloat h.2
    simp only [renderAll, weightAll, length_append, length_cons, length_nil]
    omega

theorem length_renderMembers_le (showFloat : F64 → String) {length depth : Nat} :
    ∀ {members : List (String × Json)}, PlainMembers length depth members →
      (renderMembers showFloat members).length ≤ weightMembers 6 24 members
  | [], _ => le_rfl
  | (key, _) :: _, h => by
    have hkey := length_quote_le key
    have hvalue := length_render_le showFloat h.2.1
    have hmembers := length_renderMembers_le showFloat h.2.2
    simp only [renderMembers, weightMembers, length_append, length_cons, length_nil]
    omega

end

/-! ### The weight of a plain value -/

mutual

/-- A value brings at most one key and one string, so its weight is bounded by its number of values. -/
theorem weight_le_nodes {a b c length depth : Nat} (hc : b + 2 * (a * length) ≤ c) :
    ∀ {value : Json}, Plain length depth value → weight a b value + a * length ≤ c * weight 0 1 value
  | .number (.posInt _), _ => by
    simp only [weight]
    omega
  | .string value, h => by
    have hvalue : a * value.utf8ByteSize ≤ a * length := Nat.mul_le_mul_left a h
    simp only [weight]
    omega
  | .array values, h => by
    cases depth with
    | zero => exact h.elim
    | succ =>
      have hvalues : weightAll a b values ≤ c * weightAll 0 1 values := weightAll_le_nodes hc h
      simp only [weight, mul_add]
      omega
  | .object members, h => by
    cases depth with
    | zero => exact h.elim
    | succ =>
      have hmembers : weightMembers a b members ≤ c * weightMembers 0 1 members := weightMembers_le_nodes hc h
      simp only [weight, mul_add]
      omega

theorem weightAll_le_nodes {a b c length depth : Nat} (hc : b + 2 * (a * length) ≤ c) :
    ∀ {values : List Json}, PlainAll length depth values → weightAll a b values ≤ c * weightAll 0 1 values
  | [], _ => Nat.zero_le _
  | _ :: _, h => by
    have hvalue := weight_le_nodes hc h.1
    have hvalues := weightAll_le_nodes hc h.2
    simp only [weightAll, mul_add]
    omega

theorem weightMembers_le_nodes {a b c length depth : Nat} (hc : b + 2 * (a * length) ≤ c) :
    ∀ {members : List (String × Json)}, PlainMembers length depth members →
      weightMembers a b members ≤ c * weightMembers 0 1 members
  | [], _ => Nat.zero_le _
  | (key, _) :: _, h => by
    have hkey : a * key.utf8ByteSize ≤ a * length := Nat.mul_le_mul_left a h.1
    have hvalue := weight_le_nodes hc h.2.1
    have hmembers := weightMembers_le_nodes hc h.2.2
    simp only [weightMembers, mul_add]
    omega

end

/-! ### Lists and members -/

theorem weightAll_eq_sum (a b : Nat) (values : List Json) : weightAll a b values = (values.map (weight a b)).sum := by
  induction values with
  | nil => rfl
  | cons _ _ ih => rw [weightAll, ih, map_cons, sum_cons]

def weightMember (a b : Nat) (key : String) (value : Json) : Nat := a * key.utf8ByteSize + weight a b value

theorem weightMembers_eq_sum (a b : Nat) (members : List (String × Json)) :
    weightMembers a b members = (members.map fun m => weightMember a b m.1 m.2).sum := by
  induction members with
  | nil => rfl
  | cons _ _ ih => rw [weightMembers, ih, map_cons, sum_cons, weightMember]

theorem weightMembers_append (a b : Nat) (members members' : List (String × Json)) :
    weightMembers a b (members ++ members') = weightMembers a b members + weightMembers a b members' := by
  simp only [weightMembers_eq_sum, map_append, sum_append]

theorem plain_string {length depth : Nat} {value : String} :
    Plain length depth (.string value) ↔ value.utf8ByteSize ≤ length := by
  rw [Plain]

theorem plainAll_iff {length depth : Nat} {values : List Json} :
    PlainAll length depth values ↔ ∀ value ∈ values, Plain length depth value := by
  induction values with
  | nil => simp [PlainAll]
  | cons _ _ ih => rw [PlainAll, ih, forall_mem_cons]

theorem plainMembers_iff {length depth : Nat} {members : List (String × Json)} :
    PlainMembers length depth members ↔ ∀ m ∈ members, m.1.utf8ByteSize ≤ length ∧ Plain length depth m.2 := by
  induction members with
  | nil => simp [PlainMembers]
  | cons _ _ ih => rw [PlainMembers, ih, forall_mem_cons, and_assoc]

/-! ### Sorting changes no weight for the worse -/

theorem sumBy_insert_le (w : String → Json → Nat) (m : BTreeMap String Json) (key : String) (value : Json) :
    sumBy w (m.insert key value) ≤ sumBy w m + w key value := by
  rw [sumBy_insert]
  cases h : m[key]? with
  | none => rw [erase_of_get_none h, add_comm]
  | some =>
    have herase := sumBy_erase_add (w := w) h
    omega

mutual

theorem weight_sortKeys_le (a b : Nat) : ∀ value : Json, weight a b (sortKeys value) ≤ weight a b value
  | .null | .bool _ | .number _ | .string _ => le_rfl
  | .array values => by
    have h := weightAll_sortAll_le a b values
    simp only [sortKeys, weight]
    omega
  | .object members => by
    have h := sumBy_sortMembers_le a b members ∅
    rw [sumBy_empty, sumBy, ← weightMembers_eq_sum] at h
    simp only [sortKeys, weight]
    omega

theorem weightAll_sortAll_le (a b : Nat) : ∀ values : List Json, weightAll a b (sortAll values) ≤ weightAll a b values
  | [] => le_rfl
  | value :: values => by
    have hvalue := weight_sortKeys_le a b value
    have hvalues := weightAll_sortAll_le a b values
    simp only [sortAll, weightAll]
    omega

theorem sumBy_sortMembers_le (a b : Nat) : ∀ (members : List (String × Json)) (sorted : BTreeMap String Json),
    sumBy (weightMember a b) (sortMembers members sorted) ≤
      sumBy (weightMember a b) sorted + weightMembers a b members
  | [], _ => le_rfl
  | (key, value) :: members, sorted => by
    have hvalue := weight_sortKeys_le a b value
    have hinsert := sumBy_insert_le (weightMember a b) sorted key (sortKeys value)
    have hmembers := sumBy_sortMembers_le a b members (sorted.insert key (sortKeys value))
    rw [weightMember] at hinsert
    simp only [sortMembers, weightMembers]
    omega

end

mutual

theorem plain_sortKeys {length depth : Nat} :
    ∀ {value : Json}, Plain length depth value → Plain length depth (sortKeys value)
  | .null, h | .bool _, h | .number _, h | .string _, h => h
  | .array values, h => by
    cases depth with
    | zero => exact h.elim
    | succ => exact plainAll_sortAll h
  | .object members, h => by
    cases depth with
    | zero => exact h.elim
    | succ depth =>
      refine plainMembers_iff.mpr fun m hm => ?_
      have hempty : ∀ (key : String) (value : Json), (∅ : BTreeMap String Json)[key]? = some value →
          key.utf8ByteSize ≤ length ∧ Plain length depth value := by
        intro _ _ hget
        rw [Std.ExtTreeMap.getElem?_empty] at hget
        cases hget
      exact plain_sortMembers h hempty (mem_toList.mp hm)

theorem plainAll_sortAll {length depth : Nat} :
    ∀ {values : List Json}, PlainAll length depth values → PlainAll length depth (sortAll values)
  | [], h => h
  | _ :: _, h => ⟨plain_sortKeys h.1, plainAll_sortAll h.2⟩

theorem plain_sortMembers {length depth : Nat} : ∀ {members : List (String × Json)} {sorted : BTreeMap String Json},
    PlainMembers length depth members →
    (∀ (key : String) (value : Json), sorted[key]? = some value →
      key.utf8ByteSize ≤ length ∧ Plain length depth value) →
    ∀ {key : String} {value : Json}, (sortMembers members sorted)[key]? = some value →
      key.utf8ByteSize ≤ length ∧ Plain length depth value
  | [], _, _, hsorted => hsorted _ _
  | (key, value) :: members, sorted, h, hsorted => by
    intro hget
    refine plain_sortMembers h.2.2 (fun _ _ hget' => ?_) hget
    rcases get_insert_eq_some.mp hget' with ⟨rfl, rfl⟩ | ⟨-, hold⟩
    · exact ⟨h.1, plain_sortKeys h.2.1⟩
    · exact hsorted _ _ hold

end

end Json
