import EnipAdapter.Foundation.Binary64

/-!
# JSON values

`serde_json::Value` as the adapter's command surface sees it: numbers keep the distinction
between an unsigned literal, a negative literal and a float, and the accessors narrow a
value only when it carries that very kind.
-/

set_option autoImplicit false

namespace EnipAdapter.Model

open EnipAdapter.Foundation

/-- A JSON number. A negative literal is below zero and a float is finite, as the parser
guarantees. -/
inductive Number where
  | posInt (n : UInt64)
  | negInt (n : Int64) (negative : n < 0)
  | float (x : F64) (finite : x.isFinite = true)
deriving DecidableEq, Repr

inductive Json where
  | null
  | bool (b : Bool)
  | num (n : Number)
  | str (s : String)
  | arr (items : List Json)
  | obj (fields : List (String × Json))
deriving Repr

namespace Json

/-- Equality of numbers: of one kind and of one value, zeros of either sign alike. -/
def sameNumber : Number → Number → Bool
  | .posInt a, .posInt b => a == b
  | .negInt a _, .negInt b _ => a == b
  | .float a _, .float b _ => a.eqv b
  | _, _ => false

mutual

/-- `==` on values. The members of an object have no order. -/
def same : Json → Json → Bool
  | .null, .null => true
  | .bool a, .bool b => a == b
  | .num a, .num b => sameNumber a b
  | .str a, .str b => a == b
  | .arr as, .arr bs => sameItems as bs
  | .obj as, .obj bs => as.length == bs.length && sameMembers as bs
  | _, _ => false

def sameItems : List Json → List Json → Bool
  | [], [] => true
  | a :: as, b :: bs => same a b && sameItems as bs
  | _, _ => false

/-- Every member of the first object is in the second. -/
def sameMembers : List (String × Json) → List (String × Json) → Bool
  | [], _ => true
  | (key, a) :: as, bs => ((bs.lookup key).any (same a)) && sameMembers as bs

end

mutual

/-- No object has a key twice, as in every value the parser builds. -/
def DistinctKeys : Json → Prop
  | .arr items => DistinctItems items
  | .obj fields => (fields.map Prod.fst).Nodup ∧ DistinctMembers fields
  | _ => True

def DistinctItems : List Json → Prop
  | [] => True
  | a :: as => DistinctKeys a ∧ DistinctItems as

def DistinctMembers : List (String × Json) → Prop
  | [] => True
  | (_, a) :: as => DistinctKeys a ∧ DistinctMembers as

end

/-- The member of an object under a key; `none` for every other value. -/
def get (v : Json) (key : String) : Option Json :=
  match v with
  | .obj fields => fields.lookup key
  | _ => none

def isNull : Json → Bool
  | .null => true
  | _ => false

def asBool : Json → Option Bool
  | .bool b => some b
  | _ => none

def asStr : Json → Option String
  | .str s => some s
  | _ => none

def asArray : Json → Option (List Json)
  | .arr items => some items
  | _ => none

def asU64 : Json → Option UInt64
  | .num (.posInt n) => some n
  | _ => none

/-- `as_i64`: an integer literal in the signed range. -/
def asI64 : Json → Option Int64
  | .num (.posInt n) => if n.toNat < 2 ^ 63 then some n.toInt64 else none
  | .num (.negInt n _) => some n
  | _ => none

/-- `as_f64`: any number, an integer literal rounded to the nearest float. -/
def asF64 : Json → Option F64
  | .num (.posInt n) => some (F64.ofInt n.toNat)
  | .num (.negInt n _) => some (F64.ofInt n.toInt)
  | .num (.float x _) => some x
  | _ => none

/-- The integer a JSON number denotes when it was written as an integer literal. -/
def asInt : Json → Option ℤ
  | .num (.posInt n) => some n.toNat
  | .num (.negInt n _) => some n.toInt
  | _ => none

def ofNat (n : ℕ) : Json := .num (.posInt (UInt64.ofNat n))

/-- An unsigned literal denotes its own value. -/
theorem asInt_of_asU64 {v : Json} {n : UInt64} (h : v.asU64 = some n) :
    v.asInt = some (n.toNat : ℤ) := by
  unfold asU64 at h
  split at h
  · cases h
    rfl
  · cases h

/-- A value that denotes a natural number is an unsigned literal. -/
theorem asU64_of_asInt {v : Json} {n : ℕ} (h : v.asInt = some (n : ℤ)) :
    ∃ m : UInt64, v.asU64 = some m ∧ m.toNat = n := by
  unfold asInt at h
  split at h
  · rename_i m
    simp only [Option.some.injEq, Nat.cast_inj] at h
    exact ⟨m, rfl, h⟩
  · rename_i m hm
    have hneg : m.toInt < 0 := by simpa [Int64.lt_iff_toInt_lt] using hm
    simp only [Option.some.injEq] at h
    omega
  · cases h

end Json

end EnipAdapter.Model
