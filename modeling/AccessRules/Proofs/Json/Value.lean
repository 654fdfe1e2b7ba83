import AccessRules.Json.Document

/-!
# Values as documents

A JSON value is a document of which every part has its value. It is given back to whoever lets it nest
as deep as it does, and to nobody else:

> `toJson?_toDocument`: reading the value of the document of a value gives the value, unless it nests
> deeper than it may.
-/

namespace AccessRules.Json

/-- No member nests deeper than all of them together. -/
theorem depth_le_membersDepth {key : String} {item : Json} {members : List (String × Json)}
    (h : (key, item) ∈ members) : item.depth ≤ membersDepth members := by
  induction members with
  | nil => cases h
  | cons member members ih =>
    rw [membersDepth]
    rcases List.mem_cons.mp h with rfl | h
    · exact Nat.le_max_left _ _
    · exact Nat.le_trans (ih h) (Nat.le_max_right _ _)

mutual

/-- A value comes back from its document if it nests no deeper than it may. -/
theorem toJson?_toDocument (levels : Nat) :
    (j : Json) → j.toDocument.toJson? levels = if j.depth ≤ levels then some j else none
  | .null => by simp [toDocument, Document.toJson?, depth]
  | .bool b => by simp [toDocument, Document.toJson?, depth]
  | .int i => by simp [toDocument, Document.toJson?, depth]
  | .float x => by simp [toDocument, Document.toJson?, depth]
  | .string s => by simp [toDocument, Document.toJson?, depth]
  | .array items => by
    cases levels with
    | zero => simp [toDocument, Document.toJson?, depth]
    | succ levels =>
      rw [toDocument, Document.toJson?, depth, itemsToJson?_itemDocuments levels items]
      by_cases h : itemsDepth items ≤ levels <;> simp [h]
  | .object members => by
    cases levels with
    | zero => simp [toDocument, Document.toJson?, depth]
    | succ levels =>
      rw [toDocument, Document.toJson?, depth, membersToJson?_memberDocuments levels members]
      by_cases h : membersDepth members ≤ levels <;> simp [h]

/-- Items come back from their documents if none nests deeper than it may. -/
theorem itemsToJson?_itemDocuments (levels : Nat) :
    (items : List Json) → itemsToJson? levels (itemDocuments items) =
      if itemsDepth items ≤ levels then some items else none
  | [] => by simp [itemDocuments, itemsToJson?, itemsDepth]
  | item :: items => by
    simp only [itemDocuments, itemsToJson?, itemsDepth, toJson?_toDocument levels item,
      itemsToJson?_itemDocuments levels items, Nat.max_le]
    by_cases h : depth item ≤ levels <;> by_cases h' : itemsDepth items ≤ levels <;> simp [h, h']

theorem membersToJson?_memberDocuments (levels : Nat) :
    (members : List (String × Json)) → membersToJson? levels (memberDocuments members) =
      if membersDepth members ≤ levels then some members else none
  | [] => by simp [memberDocuments, membersToJson?, membersDepth]
  | (key, item) :: members => by
    simp only [memberDocuments, membersToJson?, membersDepth, toJson?_toDocument levels item,
      membersToJson?_memberDocuments levels members, Nat.max_le]
    by_cases h : depth item ≤ levels <;> by_cases h' : membersDepth members ≤ levels <;> simp [h, h']

end

end AccessRules.Json
