import Mathlib.Data.List.Basic
import Mathlib.Data.List.Chain
import Mathlib.Data.List.Induction
import Mathlib.Logic.Function.Basic

/-!
Logs of level changes. A family of signals, one level for each key, is
observed through a list of edges; an edge names a key and its new level.
`Changes before edges after` says that the log is exact: every edge really
changes the level of its key, and replaying the whole log leads from `before`
to `after`.

An exact log alternates on every key when the level type has two values, and
its last edge on a key is the present level. These are the facts a publisher
of edges needs, whatever produces them.
-/

namespace Usahp.Library

variable {κ L : Type*} [DecidableEq κ]

/-- What an observer who starts from `levels` believes after the log. -/
def replay (levels : κ → L) : List (κ × L) → κ → L
  | [] => levels
  | edge :: rest => replay (Function.update levels edge.1 edge.2) rest

def Changes (before : κ → L) : List (κ × L) → (κ → L) → Prop
  | [], after => after = before
  | edge :: rest, after =>
      before edge.1 ≠ edge.2 ∧
        Changes (Function.update before edge.1 edge.2) rest after

/-- The levels the log gives to one key, in order. -/
def levelsOf (key : κ) (edges : List (κ × L)) : List L :=
  (edges.filter (·.1 = key)).map Prod.snd

@[simp] theorem changes_nil {before after : κ → L} :
    Changes before [] after ↔ after = before := Iff.rfl

theorem changes_singleton {before after : κ → L} {edge : κ × L} :
    Changes before [edge] after ↔
      before edge.1 ≠ edge.2 ∧ after = Function.update before edge.1 edge.2 := Iff.rfl

theorem Changes.replay_eq {before after : κ → L} {edges : List (κ × L)}
    (h : Changes before edges after) : replay before edges = after := by
  induction edges generalizing before with
  | nil => exact h.symm
  | cons edge rest ih => exact ih h.2

theorem Changes.append {before middle after : κ → L} {first second : List (κ × L)}
    (hfirst : Changes before first middle) (hsecond : Changes middle second after) :
    Changes before (first ++ second) after := by
  induction first generalizing before with
  | nil =>
      cases hfirst
      exact hsecond
  | cons edge rest ih => exact ⟨hfirst.1, ih hfirst.2⟩

theorem levelsOf_cons_self (key : κ) (level : L) (rest : List (κ × L)) :
    levelsOf key ((key, level) :: rest) = level :: levelsOf key rest := by
  simp [levelsOf]

theorem levelsOf_cons_of_ne {key other : κ} (hne : other ≠ key) (level : L)
    (rest : List (κ × L)) :
    levelsOf key ((other, level) :: rest) = levelsOf key rest := by
  simp [levelsOf, hne]

/-- On each key the log alternates: no level repeats the one before it, the
level before the log included. -/
theorem Changes.alternates {before after : κ → L} {edges : List (κ × L)}
    (h : Changes before edges after) (key : κ) :
    List.IsChain (· ≠ ·) (before key :: levelsOf key edges) := by
  induction edges generalizing before with
  | nil => exact List.isChain_singleton _
  | cons edge rest ih =>
      obtain ⟨other, level⟩ := edge
      obtain ⟨hchange, hrest⟩ := h
      have htail := ih hrest
      by_cases hkey : other = key
      · subst hkey
        rw [Function.update_self] at htail
        rw [levelsOf_cons_self]
        exact List.isChain_cons_cons.mpr ⟨hchange, htail⟩
      · rw [Function.update_of_ne (Ne.symm hkey)] at htail
        rwa [levelsOf_cons_of_ne hkey]

/-- The level after a log is the last one it gives to the key. -/
theorem Changes.last {before after : κ → L} {edges : List (κ × L)}
    (h : Changes before edges after) (key : κ) :
    after key = ((levelsOf key edges).getLast?).getD (before key) := by
  induction edges generalizing before with
  | nil =>
      cases h
      rfl
  | cons edge rest ih =>
      obtain ⟨other, level⟩ := edge
      have htail := ih h.2
      by_cases hkey : other = key
      · subst hkey
        rw [Function.update_self] at htail
        rw [levelsOf_cons_self, htail, List.getLast?_cons]
        rfl
      · rw [Function.update_of_ne (Ne.symm hkey)] at htail
        rw [levelsOf_cons_of_ne hkey, htail]

/-- Bringing a duplicate-free list of keys to one level is an exact log when
none of them is at that level yet. -/
theorem changes_of_nodup {before : κ → L} (level : L) {keys : List κ}
    (hnodup : keys.Nodup) (hother : ∀ key ∈ keys, before key ≠ level) :
    Changes before (keys.map fun key => (key, level))
      (fun key => if key ∈ keys then level else before key) := by
  induction keys generalizing before with
  | nil => simp
  | cons first rest ih =>
      obtain ⟨hfresh, hrest⟩ := List.nodup_cons.mp hnodup
      refine ⟨hother first (by simp), ?_⟩
      have hstep := @ih (Function.update before first level) hrest (by
        intro key hkey
        have hne : key ≠ first := fun heq => hfresh (heq ▸ hkey)
        rw [Function.update_of_ne hne]
        exact hother key (by simp [hkey]))
      convert hstep using 1
      funext key
      by_cases hkey : key = first
      · subst hkey
        simp
      · simp [hkey, Function.update_of_ne]

end Usahp.Library
