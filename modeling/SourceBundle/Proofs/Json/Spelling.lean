import SourceBundle.Json.Value

/-!
# Texts of JSON values

A value has many texts, which differ in the white space between their tokens.  They are described by
a relation (`Spells`): what stands before an item or a member is white space with a comma in it, or
without one before the first, and what is spelled after it is a value.  The value on one line and
the value over several lines are two such texts.
-/

namespace SourceBundle.Json

/-- The text is white space. -/
def IsGap (t : Text) : Prop := ∀ c ∈ t, c = ' ' ∨ c = '\n' ∨ c = '\t' ∨ c = '\r'

theorem isGap_nil : IsGap [] := fun _ h => absurd h List.not_mem_nil

theorem isGap_space : IsGap [' '] := by simp [IsGap]

theorem isGap_newLine (depth : Nat) : IsGap (newLine depth) := by
  intro c hc
  rcases List.mem_cons.mp hc with rfl | hc
  · exact .inr (.inl rfl)
  · exact .inl (List.eq_of_mem_replicate hc)

/-- What stands before an item of a list or a member of an object. -/
inductive Lead : (isFirst : Bool) → Text → Prop where
  | first {gap : Text} : IsGap gap → Lead true gap
  | next {gap gap' : Text} : IsGap gap → IsGap gap' → Lead false (gap ++ ',' :: gap')

mutual

/-- The text is one of the value: between its tokens there may be white space. -/
inductive Spells : Json → Text → Prop where
  | null : Spells .null "null".toList
  | bool (b : Bool) : Spells (.bool b) (boolText b)
  | number (n : Nat) : Spells (.number n) (Text.numeral n)
  | text (t : Text) : Spells (.text t) (quote t)
  | list {items : List Json} {t : Text} : SpellsItems true items t → Spells (.list items) ('[' :: t)
  | object {members : List (Text × Json)} {t : Text} : SpellsMembers true members t →
      Spells (.object members) ('\x7b' :: t)

/-- The text is one of the items and the bracket that ends them. -/
inductive SpellsItems : (isFirst : Bool) → List Json → Text → Prop where
  | nil {isFirst : Bool} {gap : Text} : IsGap gap → SpellsItems isFirst [] (gap ++ [']'])
  | cons {isFirst : Bool} {item : Json} {items : List Json} {lead t rest : Text} :
      Lead isFirst lead → Spells item t → SpellsItems false items rest →
      SpellsItems isFirst (item :: items) (lead ++ (t ++ rest))

/-- The text is one of the members and the brace that ends them. -/
inductive SpellsMembers : (isFirst : Bool) → List (Text × Json) → Text → Prop where
  | nil {isFirst : Bool} {gap : Text} : IsGap gap → SpellsMembers isFirst [] (gap ++ ['\x7d'])
  | cons {isFirst : Bool} {key : Text} {value : Json} {members : List (Text × Json)}
      {lead gap gap' t rest : Text} :
      Lead isFirst lead → IsGap gap → IsGap gap' → Spells value t →
      SpellsMembers false members rest →
      SpellsMembers isFirst ((key, value) :: members)
        (lead ++ (quote key ++ (gap ++ ':' :: (gap' ++ (t ++ rest)))))

end

/-! ## The value on one line -/

theorem lead_comma : Lead false [','] := .next isGap_nil isGap_nil

theorem compactItems_cons (item next : Json) (items : List Json) :
    compactItems (item :: next :: items) =
      compact item ++ ([','] ++ compactItems (next :: items)) := by
  rw [compactItems, List.append_assoc]
  exact List.cons_ne_nil _ _

theorem compactMembers_singleton (key : Text) (value : Json) :
    compactMembers [(key, value)] =
      quote key ++ ([] ++ ':' :: ([] ++ (compact value ++ ([] ++ ['\x7d'])))) := by
  rw [compactMembers]
  simp

theorem compactMembers_cons (key : Text) (value : Json) (next : Text × Json)
    (members : List (Text × Json)) :
    compactMembers ((key, value) :: next :: members) =
      quote key ++
        ([] ++ ':' :: ([] ++ (compact value ++ ([','] ++ compactMembers (next :: members))))) := by
  rw [compactMembers]
  · simp
  · exact List.cons_ne_nil _ _

mutual

theorem spells_compact : (v : Json) → Spells v (compact v)
  | .null => .null
  | .bool b => .bool b
  | .number n => .number n
  | .text t => .text t
  | .list [] => .list (.nil isGap_nil)
  | .list (item :: items) =>
    .list (spellsItems_compact (item :: items) (List.cons_ne_nil _ _) (.first isGap_nil))
  | .object [] => .object (.nil isGap_nil)
  | .object (member :: members) =>
    .object (spellsMembers_compact (member :: members) (List.cons_ne_nil _ _) (.first isGap_nil))

theorem spellsItems_compact : (items : List Json) → items ≠ [] → {isFirst : Bool} → {lead : Text} →
    Lead isFirst lead → SpellsItems isFirst items (lead ++ compactItems items)
  | [], hne, _, _, _ => absurd rfl hne
  | [item], _, _, _, hlead => .cons hlead (spells_compact item) (.nil isGap_nil)
  | item :: next :: items, _, _, _, hlead => by
    rw [compactItems_cons]
    exact .cons hlead (spells_compact item)
      (spellsItems_compact (next :: items) (List.cons_ne_nil _ _) lead_comma)

theorem spellsMembers_compact : (members : List (Text × Json)) → members ≠ [] →
    {isFirst : Bool} → {lead : Text} → Lead isFirst lead →
    SpellsMembers isFirst members (lead ++ compactMembers members)
  | [], hne, _, _, _ => absurd rfl hne
  | [(key, value)], _, _, _, hlead => by
    rw [compactMembers_singleton]
    exact .cons hlead isGap_nil isGap_nil (spells_compact value) (.nil isGap_nil)
  | (key, value) :: next :: members, _, _, _, hlead => by
    rw [compactMembers_cons]
    exact .cons hlead isGap_nil isGap_nil (spells_compact value)
      (spellsMembers_compact (next :: members) (List.cons_ne_nil _ _) lead_comma)

end

/-! ## The value over several lines -/

theorem lead_first_newLine (depth : Nat) : Lead true ([] ++ newLine depth) :=
  .first (isGap_newLine depth)

theorem lead_comma_newLine (depth : Nat) : Lead false ([','] ++ newLine depth) :=
  .next isGap_nil (isGap_newLine depth)

theorem prettyItems_singleton (depth : Nat) (item : Json) :
    prettyItems depth [item] =
      newLine (depth + 1) ++ (prettyAt (depth + 1) item ++ (newLine depth ++ [']'])) := by
  rw [prettyItems]
  simp

theorem prettyItems_cons (depth : Nat) (item next : Json) (items : List Json) :
    prettyItems depth (item :: next :: items) =
      newLine (depth + 1) ++
        (prettyAt (depth + 1) item ++ ([','] ++ prettyItems depth (next :: items))) := by
  rw [prettyItems]
  · simp
  · exact List.cons_ne_nil _ _

theorem prettyMembers_singleton (depth : Nat) (key : Text) (value : Json) :
    prettyMembers depth [(key, value)] =
      newLine (depth + 1) ++ (quote key ++
        ([] ++ ':' :: ([' '] ++ (prettyAt (depth + 1) value ++ (newLine depth ++ ['\x7d']))))) := by
  rw [prettyMembers]
  simp

theorem prettyMembers_cons (depth : Nat) (key : Text) (value : Json) (next : Text × Json)
    (members : List (Text × Json)) :
    prettyMembers depth ((key, value) :: next :: members) =
      newLine (depth + 1) ++ (quote key ++
        ([] ++ ':' :: ([' '] ++ (prettyAt (depth + 1) value ++
          ([','] ++ prettyMembers depth (next :: members)))))) := by
  rw [prettyMembers]
  · simp
  · exact List.cons_ne_nil _ _

mutual

theorem spells_prettyAt : (v : Json) → (depth : Nat) → Spells v (prettyAt depth v)
  | .null, _ => .null
  | .bool b, _ => .bool b
  | .number n, _ => .number n
  | .text t, _ => .text t
  | .list [], _ => .list (.nil isGap_nil)
  | .list (item :: items), depth =>
    .list (spellsItems_pretty (item :: items) depth (List.cons_ne_nil _ _)
      (lead_first_newLine (depth + 1)))
  | .object [], _ => .object (.nil isGap_nil)
  | .object (member :: members), depth =>
    .object (spellsMembers_pretty (member :: members) depth (List.cons_ne_nil _ _)
      (lead_first_newLine (depth + 1)))

theorem spellsItems_pretty : (items : List Json) → (depth : Nat) → items ≠ [] →
    {isFirst : Bool} → {before : Text} → Lead isFirst (before ++ newLine (depth + 1)) →
    SpellsItems isFirst items (before ++ prettyItems depth items)
  | [], _, hne, _, _, _ => absurd rfl hne
  | [item], depth, _, _, _, hlead => by
    rw [prettyItems_singleton, ← List.append_assoc]
    exact .cons hlead (spells_prettyAt item (depth + 1)) (.nil (isGap_newLine depth))
  | item :: next :: items, depth, _, _, _, hlead => by
    rw [prettyItems_cons, ← List.append_assoc]
    exact .cons hlead (spells_prettyAt item (depth + 1))
      (spellsItems_pretty (next :: items) depth (List.cons_ne_nil _ _)
        (lead_comma_newLine (depth + 1)))

theorem spellsMembers_pretty : (members : List (Text × Json)) → (depth : Nat) → members ≠ [] →
    {isFirst : Bool} → {before : Text} → Lead isFirst (before ++ newLine (depth + 1)) →
    SpellsMembers isFirst members (before ++ prettyMembers depth members)
  | [], _, hne, _, _, _ => absurd rfl hne
  | [(key, value)], depth, _, _, _, hlead => by
    rw [prettyMembers_singleton, ← List.append_assoc]
    exact .cons hlead isGap_nil isGap_space (spells_prettyAt value (depth + 1))
      (.nil (isGap_newLine depth))
  | (key, value) :: next :: members, depth, _, _, _, hlead => by
    rw [prettyMembers_cons, ← List.append_assoc]
    exact .cons hlead isGap_nil isGap_space (spells_prettyAt value (depth + 1))
      (spellsMembers_pretty (next :: members) depth (List.cons_ne_nil _ _)
        (lead_comma_newLine (depth + 1)))

end

theorem spells_pretty (v : Json) : Spells v (pretty v) := spells_prettyAt v 0

end SourceBundle.Json
