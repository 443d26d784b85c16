import Mathlib.Data.List.Infix
import Usahp.Library.Edges

/-!
Edges that only partly reach an observer. Keys go down and up; of each entry of
a log it is known whether the observer gets it. A hold is an edge down with the
edge up that ends it. Where the observer gets both edges of a hold or none of
them, he sees keys go down and up in turn and never has one down that is up; and
he sees that only then.
-/

namespace Usahp.Library

variable {α κ : Type*} [DecidableEq κ]

/-- The holds of a log, given the entries that began those still open. An edge
is a key and whether it goes down. -/
def holds (edge : α → Option (κ × Bool)) (begun : κ → Option α) : List α → List (α × α)
  | [] => []
  | entry :: rest =>
      match edge entry with
      | none => holds edge begun rest
      | some (key, true) => holds edge (Function.update begun key (some entry)) rest
      | some (key, false) =>
          (begun key).toList.map (·, entry) ++
            holds edge (Function.update begun key none) rest

/-- Every edge changes its key. -/
def Exact (down : κ → Bool) (edges : List (κ × Bool)) : Prop :=
  Changes down edges (replay down edges)

instance Exact.decidable (down : κ → Bool) :
    (edges : List (κ × Bool)) → Decidable (Exact down edges)
  | [] => .isTrue rfl
  | (key, goes) :: rest =>
      have := Exact.decidable (Function.update down key goes) rest
      inferInstanceAs (Decidable
        (down key ≠ goes ∧ Exact (Function.update down key goes) rest))

/-- What the observer gets is exact, and at no time he has a key down that is
up. -/
structure Tidy (edge : α → Option (κ × Bool)) (shown : α → Bool) (actual seen : κ → Bool)
    (entries : List α) : Prop where
  exact : Exact seen ((entries.filter shown).filterMap edge)
  covered : ∀ before, before <+: entries → ∀ key,
    replay seen ((before.filter shown).filterMap edge) key = true →
      replay actual (before.filterMap edge) key = true

theorem update_forall {begun : κ → Option α} {property : κ → α → Prop}
    (h : ∀ key entry, begun key = some entry → property key entry) {key : κ} {value : Option α}
    (hvalue : ∀ entry, value = some entry → property key entry) :
    ∀ other entry, Function.update begun key value other = some entry →
      property other entry := by
  intro other entry hother
  by_cases hsame : other = key
  · subst hsame
    rw [Function.update_self] at hother
    exact hvalue entry hother
  · rw [Function.update_of_ne hsame] at hother
    exact h other entry hother

/-- The two edges of a hold belong to one key, and they are entries like the
others. -/
theorem mem_holds {edge : α → Option (κ × Bool)} {begun : κ → Option α}
    {property : α → Prop}
    (hbegun : ∀ key entry, begun key = some entry →
      property entry ∧ edge entry = some (key, true))
    {entries : List α} (hentries : ∀ entry ∈ entries, property entry) {hold : α × α}
    (h : hold ∈ holds edge begun entries) :
    property hold.1 ∧ property hold.2 ∧
      ∃ key, edge hold.1 = some (key, true) ∧ edge hold.2 = some (key, false) := by
  induction entries generalizing begun with
  | nil => cases h
  | cons entry rest ih =>
      have hrest : ∀ entry ∈ rest, property entry := by
        intro other hother
        exact hentries other (by simp [hother])
      unfold holds at h
      cases hedge : edge entry with
      | none =>
          simp only [hedge] at h
          exact ih hbegun hrest h
      | some change =>
          obtain ⟨key, goes⟩ := change
          cases goes with
          | true =>
              simp only [hedge] at h
              refine ih (update_forall hbegun ?_) hrest h
              intro began hbegan
              obtain rfl := Option.some.inj hbegan
              exact ⟨hentries _ (by simp), hedge⟩
          | false =>
              simp only [hedge, List.mem_append, List.mem_map, Option.mem_toList] at h
              rcases h with ⟨began, hbegan, rfl⟩ | hlater
              · obtain ⟨hproperty, hpress⟩ := hbegun key began hbegan
                exact ⟨hproperty, hentries entry (by simp), key, hpress, hedge⟩
              · exact ih (update_forall hbegun (by simp)) hrest hlater

theorem forall_prefix_cons_iff {property : List α → Prop} {entry : α} {rest : List α} :
    (∀ before, before <+: entry :: rest → property before) ↔
      property [] ∧ ∀ before, before <+: rest → property (entry :: before) := by
  constructor
  · intro h
    refine ⟨h [] List.nil_prefix, ?_⟩
    intro before hbefore
    exact h _ (List.cons_prefix_cons.mpr ⟨rfl, hbefore⟩)
  · rintro ⟨hnil, hcons⟩ before hbefore
    rcases List.prefix_cons_iff.mp hbefore with rfl | ⟨shorter, rfl, hshorter⟩
    · exact hnil
    · exact hcons shorter hshorter

section Tidy

variable {edge : α → Option (κ × Bool)} {shown : α → Bool} {actual seen : κ → Bool}

theorem exact_cons {down : κ → Bool} {key : κ} {goes : Bool} {rest : List (κ × Bool)} :
    Exact down ((key, goes) :: rest) ↔
      down key ≠ goes ∧ Exact (Function.update down key goes) rest := Iff.rfl

theorem tidy_iff {entries : List α} :
    Tidy edge shown actual seen entries ↔
      Exact seen ((entries.filter shown).filterMap edge) ∧
      ∀ before, before <+: entries → ∀ key,
        replay seen ((before.filter shown).filterMap edge) key = true →
          replay actual (before.filterMap edge) key = true := by
  constructor
  · intro h
    exact ⟨h.exact, h.covered⟩
  · rintro ⟨hexact, hcovered⟩
    exact ⟨hexact, hcovered⟩

theorem tidy_nil :
    Tidy edge shown actual seen [] ↔ ∀ key, seen key = true → actual key = true := by
  constructor
  · intro h
    exact h.covered [] List.nil_prefix
  · intro h
    refine ⟨rfl, ?_⟩
    intro before hbefore
    obtain rfl := List.prefix_nil.mp hbefore
    exact h

theorem Tidy.now {entries : List α} (h : Tidy edge shown actual seen entries) :
    ∀ key, seen key = true → actual key = true :=
  h.covered [] List.nil_prefix

theorem tidy_skip {entry : α} (hedge : edge entry = none) (rest : List α) :
    Tidy edge shown actual seen (entry :: rest) ↔ Tidy edge shown actual seen rest := by
  have hshown (entries : List α) : ((entry :: entries).filter shown).filterMap edge =
      (entries.filter shown).filterMap edge := by
    rw [List.filter_cons]
    split_ifs
    · rw [List.filterMap_cons_none hedge]
    · rfl
  have hall (entries : List α) :
      (entry :: entries).filterMap edge = entries.filterMap edge :=
    List.filterMap_cons_none hedge
  rw [tidy_iff, tidy_iff, forall_prefix_cons_iff]
  simp only [hshown, hall]
  constructor
  · rintro ⟨hexact, -, hcovered⟩
    exact ⟨hexact, hcovered⟩
  · rintro ⟨hexact, hcovered⟩
    exact ⟨hexact, hcovered [] List.nil_prefix, hcovered⟩

theorem tidy_cons {entry : α} {key : κ} {goes : Bool} (hedge : edge entry = some (key, goes))
    (rest : List α) :
    Tidy edge shown actual seen (entry :: rest) ↔
      (∀ other, seen other = true → actual other = true) ∧
      (shown entry = true → seen key ≠ goes) ∧
      Tidy edge shown (Function.update actual key goes)
        (if shown entry then Function.update seen key goes else seen) rest := by
  have hall (entries : List α) :
      (entry :: entries).filterMap edge = (key, goes) :: entries.filterMap edge :=
    List.filterMap_cons_some hedge
  have hshown (entries : List α) : ((entry :: entries).filter shown).filterMap edge =
      if shown entry then (key, goes) :: (entries.filter shown).filterMap edge
      else (entries.filter shown).filterMap edge := by
    rw [List.filter_cons]
    split_ifs
    · rw [List.filterMap_cons_some hedge]
    · rfl
  rw [tidy_iff, forall_prefix_cons_iff]
  simp only [hshown, hall]
  cases hentry : shown entry with
  | true =>
      simp only [if_true, forall_const, exact_cons]
      constructor
      · rintro ⟨⟨hchange, hexact⟩, hnow, hcovered⟩
        exact ⟨hnow, hchange, hexact, hcovered⟩
      · rintro ⟨hnow, hchange, hexact, hcovered⟩
        exact ⟨⟨hchange, hexact⟩, hnow, hcovered⟩
  | false =>
      simp only [Bool.false_eq_true, if_false, false_implies, true_and]
      constructor
      · rintro ⟨hexact, hnow, hcovered⟩
        exact ⟨hnow, hexact, hcovered⟩
      · rintro ⟨hnow, hexact, hcovered⟩
        exact ⟨hexact, hnow, hcovered⟩

/-- A release is shown of a key that the observer has down and of no other one. -/
theorem alike_of_tidy {key : κ} {entry : α} {rest : List α}
    (hreleased : shown entry = true → seen key ≠ false)
    (htidy : Tidy edge shown (Function.update actual key false)
      (if shown entry then Function.update seen key false else seen) rest) :
    shown entry = seen key := by
  cases hentry : shown entry with
  | true =>
      have hdown := hreleased hentry
      rw [Ne, Bool.not_eq_false] at hdown
      exact hdown.symm
  | false =>
      -- a key the observer still has down is up from here on
      rw [hentry] at htidy
      have hnow := htidy.now key
      cases hkey : seen key with
      | false => rfl
      | true => simp [hkey] at hnow

/-- The holds that are open begin the keys that are down, and the observer has
those down whose beginning he got. -/
structure Begun (shown : α → Bool) (begun : κ → Option α) (actual seen : κ → Bool) : Prop where
  actual : ∀ key, actual key = (begun key).isSome
  seen : ∀ key, seen key = (begun key).any shown

omit [DecidableEq κ] in
theorem Begun.now {begun : κ → Option α} (h : Begun shown begun actual seen) :
    ∀ key, seen key = true → actual key = true := by
  intro key hseen
  rw [h.seen] at hseen
  rw [h.actual]
  cases hbegun : begun key with
  | none => simp [hbegun] at hseen
  | some entry => rfl

theorem Begun.press {begun : κ → Option α} (h : Begun shown begun actual seen) {key : κ}
    (hup : seen key = false) (entry : α) :
    Begun shown (Function.update begun key (some entry)) (Function.update actual key true)
      (if shown entry then Function.update seen key true else seen) := by
  constructor
  · intro other
    by_cases hsame : other = key
    · subst hsame
      simp
    · simp [Function.update_of_ne hsame, h.actual]
  · intro other
    by_cases hsame : other = key
    · subst hsame
      cases hentry : shown entry <;> simp [hentry, hup]
    · cases hentry : shown entry <;> simp [Function.update_of_ne hsame, h.seen]

theorem Begun.release {begun : κ → Option α} (h : Begun shown begun actual seen) {key : κ}
    {entry : α} (halike : shown entry = seen key) :
    Begun shown (Function.update begun key none) (Function.update actual key false)
      (if shown entry then Function.update seen key false else seen) := by
  constructor
  · intro other
    by_cases hsame : other = key
    · subst hsame
      simp
    · simp [Function.update_of_ne hsame, h.actual]
  · intro other
    by_cases hsame : other = key
    · subst hsame
      cases hentry : shown entry with
      | true => simp
      | false =>
          rw [hentry] at halike
          simp [← halike]
    · cases hentry : shown entry <;> simp [Function.update_of_ne hsame, h.seen]

/-- Both edges of every hold or none of them: that is when the observer's view is
tidy. -/
theorem alike_iff_tidy {begun : κ → Option α} (h : Begun shown begun actual seen)
    {entries : List α} (hexact : Exact actual (entries.filterMap edge)) :
    (∀ hold ∈ holds edge begun entries, shown hold.1 = shown hold.2) ↔
      Tidy edge shown actual seen entries := by
  induction entries generalizing begun actual seen with
  | nil =>
      rw [tidy_nil]
      simpa [holds] using h.now
  | cons entry rest ih =>
      cases hedge : edge entry with
      | none =>
          rw [List.filterMap_cons_none hedge] at hexact
          rw [tidy_skip hedge, ← ih h hexact]
          simp only [holds, hedge]
      | some change =>
          obtain ⟨key, goes⟩ := change
          rw [List.filterMap_cons_some hedge, exact_cons] at hexact
          obtain ⟨hchange, hrest⟩ := hexact
          rw [tidy_cons hedge]
          cases goes with
          | true =>
              have hup : seen key = false := by
                have hactual := h.actual key
                cases hbegun : begun key with
                | none => simp [h.seen, hbegun]
                | some began =>
                    rw [hbegun] at hactual
                    exact absurd hactual hchange
              rw [← ih (h.press hup entry) hrest]
              simp only [holds, hedge]
              constructor
              · intro halike
                exact ⟨h.now, by simp [hup], halike⟩
              · rintro ⟨_, _, halike⟩
                exact halike
          | false =>
              have hdown : actual key = true := by simpa using hchange
              rw [h.actual, Option.isSome_iff_exists] at hdown
              obtain ⟨began, hbegan⟩ := hdown
              have hseen : seen key = shown began := by rw [h.seen, hbegan]; rfl
              simp only [holds, hedge, hbegan, Option.toList_some, List.map_cons, List.map_nil,
                List.singleton_append, List.forall_mem_cons]
              constructor
              · rintro ⟨halike, hlater⟩
                have hsame : shown entry = seen key := by rw [hseen, halike]
                refine ⟨h.now, ?_, (ih (h.release hsame) hrest).mp hlater⟩
                intro hentry
                rw [← hsame, hentry]
                decide
              · rintro ⟨_, hreleased, htidy⟩
                have hsame := alike_of_tidy hreleased htidy
                exact ⟨by rw [hsame, hseen], (ih (h.release hsame) hrest).mpr htidy⟩

end Tidy

end Usahp.Library
