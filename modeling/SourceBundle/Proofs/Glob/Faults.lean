import SourceBundle.Proofs.Glob.LiteralBrackets

/-!
# What the faults of pattern texts say

A text that is no pattern has a fault, and the fault names a rule.  Behind a front that is a pattern
by itself, so that no class is open there, the text does break this rule (`breaks_of_tokensAfter`).
Where brackets are literal the rule is one for stars, and the text breaks it with its brackets as they
are (`breaks_of_escapeBrackets`).
-/

namespace SourceBundle.Glob

variable {prev next : Option Char} {t : Text} {fault : Fault}

/-! ## Rules -/

/-- A text that stands behind the character `prev` begins with what breaks the rule of a fault: with
three stars, with two that do not make up a component by themselves, or with the bracket of a class,
and perhaps an exclamation mark, where no closing bracket stands behind the first member. -/
def Fault.Begins (prev : Option Char) (t : Text) : Fault → Prop
  | .tooManyStars => ['*', '*', '*'] <+: t
  | .looseRecursion => ∃ after, t = '*' :: '*' :: after ∧
      ¬ ((∀ c ∈ prev, c = '/') ∧ ∀ c ∈ after.head?, c = '/')
  | .openClass => ∃ lead inside, t = lead ++ inside ∧ (lead = ['['] ∨ lead = ['[', '!']) ∧
      ']' ∉ inside.tail

/-- The text breaks the rule of a fault behind a front for which `reads` holds. -/
def Fault.Breaks (reads : Text → Prop) (t : Text) (fault : Fault) : Prop :=
  ∃ front rest, t = front ++ rest ∧ reads front ∧ fault.Begins front.getLast? rest

/-! ## Where reading ends -/

/-- The text that stands behind `prev` breaks the rule of a fault behind a front that is read. -/
def Fault.BreaksBehind (prev : Option Char) (t : Text) (fault : Fault) : Prop :=
  ∃ front rest, t = front ++ rest ∧ (tokensAfter prev front).isOk ∧
    fault.Begins (front.getLast?.or prev) rest

theorem Fault.Begins.breaksBehind (h : fault.Begins prev t) : fault.BreaksBehind prev t :=
  ⟨[], t, rfl, rfl, h⟩

theorem getLast?_append_or {lead t : Text} {c : Char} (h : lead.getLast? = some c) :
    (lead ++ t).getLast?.or prev = t.getLast?.or (some c) := by
  rw [List.getLast?_append, h]
  cases t.getLast? <;> rfl

/-- A part that is read as one element is put in front. -/
theorem breaksBehind_of_token {c : Char} (lead : Text) (token : Token)
    (hlast : lead.getLast? = some c)
    (hread : ∀ u, u <+: t →
      tokensAfter prev (lead ++ u) = (tokensAfter (some c) u).map (token :: ·))
    (ih : ∀ fault, tokensAfter (some c) t = .error fault → fault.BreaksBehind (some c) t)
    {fault : Fault} (h : tokensAfter prev (lead ++ t) = .error fault) :
    fault.BreaksBehind prev (lead ++ t) := by
  rw [hread t (List.prefix_refl t), map_eq_error] at h
  obtain ⟨front, rest, rfl, hfront, hrest⟩ := ih fault h
  refine ⟨lead ++ front, rest, (List.append_assoc ..).symm, ?_, ?_⟩
  · rwa [hread front (List.prefix_append front rest), isOk_map]
  · rwa [getLast?_append_or hlast]

/-- The inside of a class that has the fault: it is never closed, or the fault stands behind it. -/
def Fault.BreaksInClass (kind : List Member → Token) (read t : Text) (fault : Fault) : Prop :=
  (fault = .openClass ∧ ']' ∉ t) ∨
    ∃ front rest, t = front ++ rest ∧ (classTokens kind read front).isOk ∧
      ∃ c, front.getLast? = some c ∧ fault.Begins (some c) rest

/-- A class that begins with `lead` is read as its inside is. -/
theorem Fault.BreaksInClass.append {kind : List Member → Token} {mark : Text} {c : Char}
    (h : fault.BreaksInClass kind [c] t) (hmark : mark = ['['] ∨ mark = ['[', '!'])
    (hread : ∀ u, tokensAfter prev (mark ++ c :: u) = classTokens kind [c] u) :
    fault.BreaksBehind prev (mark ++ c :: t) := by
  rcases h with ⟨rfl, hopen⟩ | ⟨front, rest, rfl, hfront, d, hlast, hrest⟩
  · exact Fault.Begins.breaksBehind ⟨mark, c :: t, rfl, hmark, hopen⟩
  · refine ⟨mark ++ c :: front, rest, by simp, by rwa [hread], ?_⟩
    have hlast' : (mark ++ c :: front).getLast? = some d := by
      rw [List.getLast?_append, List.getLast?_cons, hlast]
      rfl
    rwa [hlast']

/-- Where reading ends with a fault, the text breaks the rule of the fault. -/
theorem breaksBehind_of_tokensAfter (h : tokensAfter prev t = .error fault) :
    fault.BreaksBehind prev t := by
  have both : (∀ prev t fault, tokensAfter prev t = .error fault → fault.BreaksBehind prev t) ∧
      ∀ kind read t fault, classTokens kind read t = .error fault →
        fault.BreaksInClass kind read t := by
    apply reading_induction
    case nil =>
      intro prev fault h
      cases h
    -- Stars: three are too many, two stand in a component of their own, one matches a run.
    case threeStars =>
      intro prev t fault h
      cases h
      exact Fault.Begins.breaksBehind ⟨t, rfl⟩
    case lastStars =>
      intro prev fault h
      rw [tokensAfter] at h
      split at h
      · cases h
      · rename_i hopens
        cases h
        exact Fault.Begins.breaksBehind
          ⟨[], rfl, fun hboth => hopens (opensComponent_iff.mpr hboth.1)⟩
    case component =>
      intro prev t hopens ih fault h
      refine breaksBehind_of_token ['*', '*', '/'] .anyComponents rfl (fun u _ => ?_) ih h
      exact (tokensAfter.eq_4 prev u).trans (if_pos hopens)
    case closedComponent =>
      intro prev t hopens fault h
      rw [tokensAfter, if_neg hopens] at h
      cases h
      exact Fault.Begins.breaksBehind
        ⟨_, rfl, fun hboth => hopens (opensComponent_iff.mpr hboth.1)⟩
    case looseStars =>
      intro prev c t hstar hslash fault h
      rw [tokensAfter.eq_5 prev c t hstar hslash] at h
      cases h
      exact Fault.Begins.breaksBehind ⟨_, rfl, fun hboth => hslash (hboth.2 c rfl)⟩
    case star =>
      intro prev t hhead ih fault h
      refine breaksBehind_of_token ['*'] .anyRun rfl (fun u hu => tokensAfter_star ?_ prev) ih h
      obtain ⟨w, rfl⟩ := hu
      cases u with
      | nil => simp
      | cons c u => exact hhead
    case mark =>
      intro prev t ih fault h
      exact breaksBehind_of_token ['?'] .anyChar rfl (fun u _ => tokensAfter.eq_7 prev u) ih h
    -- Classes.
    case noneOf =>
      intro prev c t ih fault h
      rw [tokensAfter] at h
      exact (ih fault h).append (.inr rfl) (tokensAfter.eq_8 prev c)
    case oneOf =>
      intro prev c t hc ih fault h
      rw [tokensAfter_class hc] at h
      exact (ih fault h).append (.inl rfl) (tokensAfter_class hc prev)
    case bracket =>
      intro prev lead hlead fault h
      have hfault : tokensAfter prev lead = .error .openClass := by
        rcases hlead with rfl | rfl <;> rfl
      rw [hfault] at h
      cases h
      exact Fault.Begins.breaksBehind
        ⟨lead, [], (List.append_nil lead).symm, hlead, List.not_mem_nil⟩
    case literal =>
      intro prev c t hstar hmark hbracket ih fault h
      exact breaksBehind_of_token [c] (.literal c) rfl
        (fun u _ => tokensAfter_literal hstar hmark hbracket prev u) ih h
    case opened =>
      intro kind read fault h
      cases h
      exact .inl ⟨rfl, List.not_mem_nil⟩
    case closing =>
      intro kind read t ih fault h
      rw [classTokens, map_eq_error] at h
      obtain ⟨front, rest, rfl, hfront, hrest⟩ := ih fault h
      rw [Option.or_some] at hrest
      refine .inr ⟨']' :: front, rest, rfl, ?_, _, List.getLast?_cons, hrest⟩
      rwa [classTokens, isOk_map]
    case member =>
      intro kind read c t hc ih fault h
      rw [classTokens.eq_3 _ _ _ _ hc] at h
      rcases ih fault h with ⟨rfl, hopen⟩ | ⟨front, rest, rfl, hfront, d, hlast, hrest⟩
      · exact .inl ⟨rfl, List.not_mem_cons_of_ne_of_not_mem (Ne.symm hc) hopen⟩
      · refine .inr ⟨c :: front, rest, rfl, ?_, d, ?_, hrest⟩
        · rwa [classTokens.eq_3 _ _ _ _ hc]
        · rw [List.getLast?_cons, hlast]
          rfl
  exact both.1 prev t fault h

/-- A text that is no pattern breaks the rule of its fault. -/
theorem breaks_of_tokensAfter (h : tokensAfter none t = .error fault) :
    fault.Breaks (isPattern ·) t := by
  obtain ⟨front, rest, ht, hfront, hrest⟩ := breaksBehind_of_tokensAfter h
  rw [Option.or_none] at hrest
  exact ⟨front, rest, ht, (isPattern_eq_isOk front).trans hfront, hrest⟩

/-! ## Literal brackets -/

theorem star_not_mem_escapeChar {c : Char} (h : c ≠ '*') : '*' ∉ escapeChar c := by
  rw [escapeChar]
  split
  · decide
  · split
    · decide
    · exact fun hmem => h (List.mem_singleton.mp hmem).symm

/-- Stars stay where they are when brackets are put into classes. -/
theorem eq_append_of_escapeBrackets {front rest : Text}
    (h : escapeBrackets t = front ++ '*' :: rest) :
    ∃ u v, t = u ++ '*' :: v ∧ escapeBrackets u = front ∧ escapeBrackets v = rest := by
  induction t generalizing front with
  | nil => simp [escapeBrackets] at h
  | cons c t ih =>
    by_cases hstar : c = '*'
    · subst hstar
      rw [escapeBrackets_cons_of_ne (by decide) (by decide)] at h
      cases front with
      | nil => exact ⟨[], t, rfl, rfl, (List.cons.inj h).2⟩
      | cons d front =>
        obtain ⟨rfl, hrest⟩ := List.cons.inj h
        obtain ⟨u, v, rfl, rfl, rfl⟩ := ih hrest
        exact ⟨'*' :: u, v, rfl, rfl, rfl⟩
    · have hfront : ∃ front', front = escapeChar c ++ front' ∧
          escapeBrackets t = front' ++ '*' :: rest := by
        rw [escapeBrackets_cons, List.append_eq_append_iff] at h
        rcases h with h | ⟨more, hchar, h⟩
        · exact h
        · cases more with
          | nil => exact ⟨[], by rw [hchar, List.append_nil, List.append_nil], h.symm⟩
          | cons d more =>
            obtain ⟨rfl, -⟩ := List.cons.inj h
            exact absurd (hchar ▸ by simp) (star_not_mem_escapeChar hstar)
      obtain ⟨front', rfl, hrest⟩ := hfront
      obtain ⟨u, v, rfl, rfl, rfl⟩ := ih hrest
      exact ⟨c :: u, v, rfl, escapeBrackets_cons c u, rfl⟩

theorem eq_cons_of_escapeBrackets {rest : Text} (h : escapeBrackets t = '*' :: rest) :
    ∃ v, t = '*' :: v ∧ escapeBrackets v = rest := by
  have hhead : t.head? = some '*' := by
    rw [← head?_escapeBrackets (by decide) (by decide), h]
    rfl
  obtain ⟨v, rfl⟩ := List.head?_eq_some_iff.mp hhead
  exact ⟨v, rfl, (List.cons.inj h).2⟩

theorem head?_escapeBrackets_slash :
    (∀ c ∈ (escapeBrackets t).head?, c = '/') ↔ ∀ c ∈ t.head?, c = '/' := by
  cases t with
  | nil => rfl
  | cons c t =>
    rw [escapeBrackets_cons, escapeChar]
    split
    · simp_all
    · split <;> simp_all

theorem getLast?_escapeBrackets_slash :
    (∀ c ∈ (escapeBrackets t).getLast?, c = '/') ↔ ∀ c ∈ t.getLast?, c = '/' := by
  rcases List.eq_nil_or_concat' t with rfl | ⟨u, c, rfl⟩
  · rfl
  · have hsplit : escapeBrackets (u ++ [c]) = escapeBrackets u ++ escapeChar c := by
      simp [escapeBrackets]
    rw [hsplit, escapeChar]
    split
    · simp_all
    · split <;> simp_all

/-- A text that is no pattern with its brackets escaped has a fault in its stars, and it breaks the
rule of the fault with its brackets as they are. -/
theorem breaks_of_escapeBrackets (h : tokensAfter none (escapeBrackets t) = .error fault) :
    fault ≠ .openClass ∧ fault.Breaks (fun front => isPattern (escapeBrackets front)) t := by
  have hfault : fault ≠ .openClass := by
    have hreading := isReadingOf_escapeBrackets t none
    rw [h] at hreading
    exact hreading.2
  refine ⟨hfault, ?_⟩
  obtain ⟨front, rest, ht, hfront, hrest⟩ := breaks_of_tokensAfter h
  cases fault with
  | tooManyStars =>
    obtain ⟨rest, rfl⟩ := hrest
    obtain ⟨u, v, rfl, rfl, hv⟩ := eq_append_of_escapeBrackets ht
    obtain ⟨w, rfl, hw⟩ := eq_cons_of_escapeBrackets hv
    obtain ⟨w', rfl, -⟩ := eq_cons_of_escapeBrackets hw
    exact ⟨u, _, rfl, hfront, w', rfl⟩
  | looseRecursion =>
    obtain ⟨rest, rfl, hloose⟩ := hrest
    obtain ⟨u, v, rfl, rfl, hv⟩ := eq_append_of_escapeBrackets ht
    obtain ⟨w, rfl, rfl⟩ := eq_cons_of_escapeBrackets hv
    rw [head?_escapeBrackets_slash, getLast?_escapeBrackets_slash] at hloose
    exact ⟨u, _, rfl, hfront, w, rfl, hloose⟩
  | openClass => exact absurd rfl hfault

end SourceBundle.Glob
