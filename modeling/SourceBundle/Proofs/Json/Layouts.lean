import Mathlib.Data.List.Basic
import SourceBundle.Proofs.Json.Reading

/-!
# Layouts that take values

A layout takes a value when it reads what stands for it from every text of the value, whatever
follows (`Takes`).  A record takes an object that has its fields as members, in their order, when
each field takes the value of its member (`Fills`): no member is unknown or repeated, and each of
them changes the record in turn.

In the other direction, what a layout gives has a property if each field of it keeps the property
(`gives_record`).
-/

namespace SourceBundle.Json

open Reading

/-- From every text of the value the layout reads `a`, and leaves what follows. -/
def Takes {α : Type} (layout : Layout α) (v : Json) (a : α) : Prop :=
  ∀ ⦃t rest : Text⦄, Spells v t → Closes rest → ∃ start left,
    item (t ++ rest) = .ok (start, left) ∧ start ≠ .null ∧ layout start left = .ok (a, rest)

/-! ## Scalars -/

theorem takes_flag (b : Bool) : Takes flag (.bool b) b := by
  intro t rest ht _
  cases ht
  exact ⟨_, _, item_boolText b rest, Item.noConfusion, rfl⟩

theorem takes_text (s : Text) : Takes Reading.text (.text s) s := by
  intro t rest ht _
  cases ht
  exact ⟨_, _, item_quote s rest, Item.noConfusion, rfl⟩

/-- Whole numbers are read up to the largest one with a sign in 64 bits. -/
theorem takes_whole {n : Nat} (hn : n < Nat.pow 2 63) : Takes whole (.number n) n := by
  intro t rest ht hrest
  cases ht
  have hpow : Nat.pow 2 63 = 9223372036854775808 := by decide +kernel
  have hpow' : Int.pow 2 63 = 9223372036854775808 := by decide +kernel
  have hbound : n < Number.significandBound := by
    have hlimit : Nat.pow 2 63 < Number.significandBound := by decide +kernel
    omega
  have hfits : (n : Int) < Int.pow 2 63 := by omega
  refine ⟨_, _, item_numeral hbound hrest, Item.noConfusion, ?_⟩
  rw [whole, if_pos hfits]

/-! ## Lists of texts -/

theorem quote_append (s t : Text) :
    quote s ++ t = '"' :: (s.flatMap escapedChar ++ '"' :: t) := by
  simp [quote]

/-- Before an item there is nothing to skip but white space, or a comma comes first. -/
theorem skipSpace_lead {isFirst : Bool} {lead : Text} (h : Lead isFirst lead) (u : Text) :
    (isFirst = true ∧ skipSpace (lead ++ '"' :: u) = '"' :: u) ∨
      (isFirst = false ∧ ∃ v, skipSpace (lead ++ '"' :: u) = ',' :: v ∧
        skipSpace v = '"' :: u) := by
  have hquote : ∀ {gap : Text}, IsGap gap → skipSpace (gap ++ '"' :: u) = '"' :: u := by
    intro gap hgap
    rw [skipSpace_append hgap]
    rfl
  cases h with
  | first hgap => exact .inl ⟨rfl, hquote hgap⟩
  | @next gap gap' hgap hgap' =>
    refine .inr ⟨rfl, gap' ++ '"' :: u, ?_, hquote hgap'⟩
    rw [List.append_assoc, List.cons_append, skipSpace_append hgap]
    rfl

theorem nextItem_lead {isFirst : Bool} {lead : Text} (h : Lead isFirst lead) (s t : Text) :
    nextItem isFirst (lead ++ (quote s ++ t)) = .ok (some (quote s ++ t)) := by
  rw [quote_append]
  rcases skipSpace_lead h (s.flatMap escapedChar ++ '"' :: t) with
    ⟨rfl, hskip⟩ | ⟨rfl, v, hskip, hitem⟩
  · rw [nextItem, hskip]
    rfl
  · rw [nextItem, hskip]
    simp [hitem]

theorem nextItem_end {gap : Text} (h : IsGap gap) (isFirst : Bool) (rest : Text) :
    nextItem isFirst (gap ++ ']' :: rest) = .ok none := by
  rw [nextItem, skipSpace_append h]
  rfl

/-- A text of items is longer than their number. -/
theorem length_lt_of_spellsItems {ts : List Text} {isFirst : Bool} {t : Text}
    (h : SpellsItems isFirst (ts.map .text) t) : ts.length < t.length := by
  induction ts generalizing isFirst t with
  | nil =>
    cases h
    simp
  | cons s ts ih =>
    cases h with
    | cons _ hs hrest =>
      cases hs
      have hlonger := ih hrest
      simp only [List.length_append, List.length_cons, quote]
      omega

theorem textItems_spelled {ts : List Text} {isFirst : Bool} {fuel : Nat} {t : Text}
    (h : SpellsItems isFirst (ts.map .text) t) (hfuel : ts.length < fuel) (rest : Text) :
    textItems isFirst fuel (t ++ rest) = .ok (ts, rest) := by
  induction ts generalizing isFirst fuel t with
  | nil =>
    cases fuel with
    | zero => cases hfuel
    | succ fuel =>
      cases h with
      | nil hgap =>
        rw [List.append_assoc, List.singleton_append, textItems, nextItem_end hgap,
          skipSpace_append hgap]
        rfl
  | cons s ts ih =>
    cases fuel with
    | zero => cases hfuel
    | succ fuel =>
      cases h with
      | @cons _ _ _ lead _ others hlead hs hrest =>
        cases hs
        have hothers := ih hrest (Nat.lt_of_succ_lt_succ hfuel)
        rw [List.append_assoc, List.append_assoc, textItems, nextItem_lead hlead]
        simp only [Except.bind, item_quote, Reading.text, hothers]
        rfl

theorem takes_texts (ts : List Text) : Takes texts (.list (ts.map .text)) ts := by
  intro t rest ht _
  cases ht with
  | @list _ t hitems =>
    refine ⟨.listStart, t ++ rest, rfl, Item.noConfusion, ?_⟩
    have hlength := length_lt_of_spellsItems hitems
    refine textItems_spelled hitems ?_ rest
    rw [List.length_append]
    omega

/-! ## Fields -/

section

variable {σ α : Type}

/-- From every text of the value the field reads the change `change` of its record. -/
def FieldTakes (field : Reading.Field σ) (v : Json) (change : σ → σ) : Prop :=
  ∀ ⦃gap t rest : Text⦄, IsGap gap → Spells v t → Closes rest →
    field.read (gap ++ (t ++ rest)) = .ok (change, rest)

theorem fieldTakes_of {layout : Layout α} {v : Json} {a : α} (h : Takes layout v a) (name : String)
    (put : Option α → σ → σ) : FieldTakes (.of name layout put) v (put (some a)) := by
  intro gap t rest hgap ht hrest
  obtain ⟨start, left, hitem, hnull, hlayout⟩ := h ht hrest
  simp only [Reading.Field.of, Reading.optional, item_append hgap, hitem, Except.bind]
  rw [hlayout]
  rfl

theorem fieldTakes_null (layout : Layout α) (name : String) (put : Option α → σ → σ) :
    FieldTakes (.of name layout put) .null (put none) := by
  intro gap t rest hgap ht _
  cases ht
  simp only [Reading.Field.of, Reading.optional, item_append hgap, item_null, Except.bind]
  rfl

/-! ## Records -/

/-- The members are those of the fields, in the same order; taken one after the other they change
the record from the first one given to the second. -/
inductive Fills : List (Reading.Field σ) → List (Text × Json) → σ → σ → Prop where
  | nil {value : σ} : Fills [] [] value value
  | cons {field : Reading.Field σ} {fields : List (Reading.Field σ)} {v : Json}
      {members : List (Text × Json)} {change : σ → σ} {value result : σ} :
      FieldTakes field v change → Fills fields members (change value) result →
      Fills (field :: fields) ((field.name, v) :: members) value result

theorem nextMember_lead {isFirst : Bool} {lead : Text} (h : Lead isFirst lead) (s t : Text) :
    nextMember isFirst (lead ++ (quote s ++ t)) = .ok (some (quote s ++ t)) := by
  rw [quote_append]
  rcases skipSpace_lead h (s.flatMap escapedChar ++ '"' :: t) with
    ⟨rfl, hskip⟩ | ⟨rfl, v, hskip, hmember⟩
  · rw [nextMember, hskip]
    rfl
  · rw [nextMember, hskip]
    simp [hmember]

theorem nextMember_end {gap : Text} (h : IsGap gap) (isFirst : Bool) (rest : Text) :
    nextMember isFirst (gap ++ '\x7d' :: rest) = .ok none := by
  rw [nextMember, skipSpace_append h]
  rfl

theorem colon_append {gap : Text} (h : IsGap gap) (t : Text) : colon (gap ++ ':' :: t) = .ok t := by
  rw [colon, skipSpace_append h]
  rfl

theorem Lead.closes {lead : Text} (h : Lead false lead) (t : Text) : Closes (lead ++ t) := by
  cases h with
  | next hgap _ =>
    rw [List.append_assoc, List.cons_append]
    exact closes_append hgap (closes_cons (by simp) _)

theorem SpellsMembers.closes {members : List (Text × Json)} {t : Text}
    (h : SpellsMembers false members t) (rest : Text) : Closes (t ++ rest) := by
  cases h with
  | nil hgap =>
    rw [List.append_assoc]
    exact closes_append hgap (closes_cons (by simp) _)
  | cons hlead _ _ _ _ =>
    rw [List.append_assoc]
    exact hlead.closes _

/-- A text of members is longer than their number. -/
theorem length_lt_of_spellsMembers {members : List (Text × Json)} {isFirst : Bool} {t : Text}
    (h : SpellsMembers isFirst members t) : members.length < t.length := by
  induction members generalizing isFirst t with
  | nil =>
    cases h
    simp
  | cons member members ih =>
    cases h with
    | cons _ _ _ _ hrest =>
      have hlonger := ih hrest
      simp only [List.length_append, List.length_cons]
      omega

theorem find?_field {fields : List (Reading.Field σ)} (h : (fields.map Reading.Field.name).Nodup)
    {field : Reading.Field σ} (hfield : field ∈ fields) :
    fields.find? (fun other => other.name == field.name) = some field := by
  induction fields with
  | nil => cases hfield
  | cons first fields ih =>
    rw [List.map_cons, List.nodup_cons] at h
    rcases List.mem_cons.mp hfield with rfl | hfield
    · simp
    · have hother : first.name ≠ field.name := by
        intro same
        exact h.1 (same ▸ List.mem_map_of_mem hfield)
      rw [List.find?_cons_of_neg (by simpa using hother), ih h.2 hfield]

/-- Members are read one after the other: those to come are neither unknown nor seen before. -/
theorem members_spelled {all fields : List (Reading.Field σ)} {ms : List (Text × Json)}
    {value result : σ} (hfills : Fills fields ms value result)
    (hfind : ∀ field ∈ fields, all.find? (fun other => other.name == field.name) = some field)
    (hnames : (fields.map Reading.Field.name).Nodup) {seen : List Text}
    (hseen : ∀ field ∈ fields, field.name ∉ seen) {fuel : Nat} (hfuel : ms.length < fuel) {t : Text}
    (h : SpellsMembers seen.isEmpty ms t) (rest : Text) :
    members all seen value fuel (t ++ rest) = .ok (result, rest) := by
  induction hfills generalizing seen fuel t with
  | nil =>
    cases fuel with
    | zero => cases hfuel
    | succ fuel =>
      cases h with
      | nil hgap =>
        rw [List.append_assoc, List.singleton_append, members, nextMember_end hgap,
          skipSpace_append hgap]
        rfl
  | @cons field fields v ms change value result htakes _ ih =>
    cases fuel with
    | zero => cases hfuel
    | succ fuel =>
      cases h with
      | @cons _ _ _ _ lead gap gap' u others hlead hgap hgap' hv hothers =>
        have hnew : seen.contains field.name = false := by
          simpa using hseen field List.mem_cons_self
        obtain ⟨hname, hnames⟩ := List.nodup_cons.mp hnames
        have hfind' : ∀ other ∈ fields, all.find? (fun f => f.name == other.name) = some other :=
          fun other hother => hfind other (List.mem_cons_of_mem field hother)
        have hseen' : ∀ other ∈ fields, other.name ∉ field.name :: seen := by
          intro other hother hmem
          rcases List.mem_cons.mp hmem with same | hmem
          · exact hname (same ▸ List.mem_map_of_mem hother)
          · exact hseen other (List.mem_cons_of_mem field hother) hmem
        have hread := htakes hgap' hv (hothers.closes rest)
        have hrest := ih hfind' hnames hseen' (Nat.lt_of_succ_lt_succ hfuel) hothers
        rw [List.append_assoc, List.append_assoc, members, nextMember_lead hlead]
        simp only [Except.bind, key_quote, hfind field List.mem_cons_self, hnew,
          List.append_assoc, List.cons_append, colon_append hgap, hread]
        exact hrest

/-- A record takes the object of its fields. -/
theorem takes_record {fields : List (Reading.Field σ)} {members : List (Text × Json)}
    {blank result : σ} (h : Fills fields members blank result) (hnames : (fields.map Reading.Field.name).Nodup) :
    Takes (record fields blank) (.object members) result := by
  intro t rest ht _
  cases ht with
  | @object _ t hmembers =>
    refine ⟨.objectStart, t ++ rest, rfl, Item.noConfusion, ?_⟩
    have hlength := length_lt_of_spellsMembers hmembers
    refine members_spelled h (fun field hfield => find?_field hnames hfield) hnames
      (fun _ _ => List.not_mem_nil) ?_ hmembers rest
    rw [List.length_append]
    omega

end

/-! ## Documents -/

/-- A document of a value that its layout takes is read, with white space around it. -/
theorem document_of_takes {α : Type} {layout : Layout α} {v : Json} {a : α}
    (h : Takes layout v a) {t gap gap' : Text} (ht : Spells v t) (hgap : IsGap gap)
    (hgap' : IsGap gap') : document layout (gap ++ (t ++ gap')) = .ok a := by
  have hcloses : Closes gap' := by
    have happend := closes_append hgap' closes_nil
    rwa [List.append_nil] at happend
  obtain ⟨start, left, hitem, -, hlayout⟩ := h ht hcloses
  have hend : skipSpace gap' = [] := by
    have happend := skipSpace_append hgap' []
    rwa [List.append_nil] at happend
  simp [document, item_append hgap, hitem, hlayout, hend, Except.bind]

/-! ## What layouts give -/

section

variable {σ α : Type}

/-- All that the layout reads has the property. -/
def Gives (layout : Layout α) (P : α → Prop) : Prop :=
  ∀ ⦃start : Item⦄ ⦃t : Text⦄ ⦃a : α⦄ ⦃rest : Text⦄, layout start t = .ok (a, rest) → P a

/-- Every change that the field reads keeps the property. -/
def FieldKeeps (field : Reading.Field σ) (P : σ → Prop) : Prop :=
  ∀ ⦃t : Text⦄ ⦃change : σ → σ⦄ ⦃rest : Text⦄, field.read t = .ok (change, rest) →
    ∀ value, P value → P (change value)

theorem gives_true (layout : Layout α) : Gives layout fun _ => True := fun _ _ _ _ _ => trivial

theorem gives_whole : Gives whole fun n => n < Int.pow 2 63 := by
  intro start t n rest h
  unfold whole at h
  split at h
  · split at h
    · rename_i hn
      cases h
      exact hn
    · cases h
  · cases h

/-- A value that may be left out has the property when it is given. -/
theorem gives_of_optional {layout : Layout α} {Q : α → Prop} (h : Gives layout Q) {t rest : Text}
    {a : α} (hread : Reading.optional layout t = .ok (some a, rest)) : Q a := by
  obtain ⟨⟨start, left⟩, -, hlayout⟩ := bind_eq_ok.1 hread
  cases start with
  | null => cases hlayout
  | flag _ | number _ | text _ | listStart | objectStart =>
    obtain ⟨⟨found, rest⟩, hfound, heq⟩ := map_eq_ok.1 hlayout
    cases heq
    exact h hfound

theorem fieldKeeps_of {layout : Layout α} {Q : α → Prop} (h : Gives layout Q) {P : σ → Prop}
    {put : Option α → σ → σ}
    (hput : ∀ v, (∀ a, v = some a → Q a) → ∀ value, P value → P (put v value)) (name : String) :
    FieldKeeps (.of name layout put) P := by
  intro t change rest hread value hvalue
  obtain ⟨⟨v, left⟩, hoptional, hchange⟩ := map_eq_ok.1 hread
  cases hchange
  refine hput v ?_ value hvalue
  rintro a rfl
  exact gives_of_optional h hoptional

theorem gives_inOrder {P : σ → Prop} {fields : List (Reading.Field σ)}
    (hfields : ∀ field ∈ fields, FieldKeeps field P) {isFirst : Bool} {value result : σ}
    (hvalue : P value) {t rest : Text} (h : inOrder value isFirst fields t = .ok (result, rest)) :
    P result := by
  induction fields generalizing isFirst value t with
  | nil =>
    obtain ⟨left, -, heq⟩ := map_eq_ok.1 h
    cases heq
    exact hvalue
  | cons field fields ih =>
    obtain ⟨next, -, h⟩ := bind_eq_ok.1 h
    cases next with
    | none => cases h
    | some t =>
      obtain ⟨⟨change, left⟩, hread, h⟩ := bind_eq_ok.1 h
      have hchanged : P (change value) := hfields field List.mem_cons_self hread value hvalue
      exact ih (fun other hother => hfields other (List.mem_cons_of_mem field hother)) hchanged h

theorem gives_members {P : σ → Prop} {fields : List (Reading.Field σ)}
    (hfields : ∀ field ∈ fields, FieldKeeps field P) {seen : List Text} {value result : σ}
    (hvalue : P value) {fuel : Nat} {t rest : Text}
    (h : members fields seen value fuel t = .ok (result, rest)) : P result := by
  induction fuel generalizing seen value t with
  | zero => cases h
  | succ fuel ih =>
    obtain ⟨next, -, h⟩ := bind_eq_ok.1 h
    cases next with
    | none =>
      cases h
      exact hvalue
    | some t =>
      obtain ⟨⟨name, left⟩, -, h⟩ := bind_eq_ok.1 h
      dsimp only at h
      cases hfind : fields.find? fun field => field.name == name with
      | none =>
        rw [hfind] at h
        cases h
      | some field =>
        rw [hfind] at h
        dsimp only at h
        split at h
        · cases h
        · obtain ⟨t, -, h⟩ := bind_eq_ok.1 h
          obtain ⟨⟨change, left⟩, hread, h⟩ := bind_eq_ok.1 h
          have hchanged : P (change value) :=
            hfields field (List.mem_of_find?_eq_some hfind) hread value hvalue
          exact ih hchanged h

theorem gives_record {fields : List (Reading.Field σ)} {blank : σ} {P : σ → Prop} (hblank : P blank)
    (hfields : ∀ field ∈ fields, FieldKeeps field P) : Gives (record fields blank) P := by
  intro start t result rest h
  cases start with
  | objectStart => exact gives_members hfields hblank h
  | listStart => exact gives_inOrder hfields hblank h
  | null | flag _ | number _ | text _ => cases h

theorem gives_of_document {layout : Layout α} {P : α → Prop} (h : Gives layout P) {t : Text} {a : α}
    (hread : document layout t = .ok a) : P a := by
  obtain ⟨⟨start, left⟩, -, hread⟩ := bind_eq_ok.1 hread
  obtain ⟨⟨found, rest⟩, hfound, hread⟩ := bind_eq_ok.1 hread
  dsimp only at hread
  split at hread
  · cases hread
    exact h hfound
  · cases hread

end

end SourceBundle.Json
