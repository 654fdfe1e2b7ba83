import AccessRules.Value.Basic

/-!
# Equality, order and membership of values

Values of one type are equal when their parts are, and a whole number equals a floating-point one
when it rounds to it; nothing else crosses types. Numbers, texts, truth values and lists of
comparable items are ordered; all other pairs are incomparable, NaN with everything.
-/

namespace AccessRules

namespace Value

mutual

/-- Equality of values; objects are equal when they are the same object. -/
def same : Value → Value → Bool
  | .null, .null => true
  | .bool a, .bool b => a == b
  | .int a, .int b => a == b
  | .int a, .float y => (Number.Binary64.ofInt a.toInt).same y
  | .float x, .int b => x.same (Number.Binary64.ofInt b.toInt)
  | .float x, .float y => x.same y
  | .string s, .string t => s == t
  | .list xs, .list ys => sameItems xs ys
  | .map xs, .map ys => sameEntries xs ys
  | .object a _, .object b _ => a == b
  | _, _ => false

/-- Equality of lists, item by item. -/
def sameItems : List Value → List Value → Bool
  | [], [] => true
  | x :: xs, y :: ys => same x y && sameItems xs ys
  | _, _ => false

/-- Equality of maps, entry by entry. -/
def sameEntries : List (String × Value) → List (String × Value) → Bool
  | [], [] => true
  | (j, x) :: xs, (k, y) :: ys => j == k && same x y && sameEntries xs ys
  | _, _ => false

end

mutual

/-- The order of two values, if they have one. -/
def compare? : Value → Value → Option Ordering
  | .int a, .int b => some (compare a.toInt b.toInt)
  | .int a, .float y => (Number.Binary64.ofInt a.toInt).compare? y
  | .float x, .int b => x.compare? (Number.Binary64.ofInt b.toInt)
  | .float x, .float y => x.compare? y
  | .string s, .string t => some (compare s t)
  | .bool a, .bool b => some (compare a.toNat b.toNat)
  | .list xs, .list ys => compareItems? xs ys
  | _, _ => none

/-- The order of two lists: that of the first items that differ, and the shorter list first if
none do. Items that are incomparable before that leave the lists incomparable. -/
def compareItems? : List Value → List Value → Option Ordering
  | [], [] => some .eq
  | [], _ :: _ => some .lt
  | _ :: _, [] => some .gt
  | x :: xs, y :: ys =>
    match compare? x y with
    | some .eq => compareItems? xs ys
    | other => other

end

/-- Whether a text occurs in another. -/
def occursIn (needle : List Char) : List Char → Bool
  | [] => needle.isEmpty
  | c :: cs => needle.isPrefixOf (c :: cs) || occursIn needle cs

/-- Whether a container holds a value: a list an item, a text a part, a map a key. Other pairs have
no answer. -/
def contains? : Value → Value → Option Bool
  | .list items, item => some (items.any fun x => x.same item)
  | .string s, .string needle => some (occursIn needle.toList s.toList)
  | .map entries, .string key => some (Dict.contains entries key)
  | _, _ => none

end Value

end AccessRules
