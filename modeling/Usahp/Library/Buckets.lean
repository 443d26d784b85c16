import Mathlib.Data.List.Basic
import Mathlib.Data.List.Induction
import Mathlib.Data.Set.Function

/-!
Values in buckets, one for each key in use. A table is filled by pushing one
value after the other, so a bucket holds the values of its key in the order in
which they came. `collect_apply` reads a finished table off the list of entries;
a one-to-one renaming of the keys moves the buckets and leaves them as they are.
-/

namespace Usahp.Library

/-- A loop that may fail, with an invariant about the items it has dealt with.
The invariant is carried by the items so far, so it may say what the state is. -/
theorem foldlM_invariant {α σ ε : Type*} {step : σ → α → Except ε σ}
    (property : List α → σ → Prop) (items : List α)
    (hstep : ∀ dealt state, ∀ item ∈ items, property dealt state →
      ∃ next, step state item = .ok next ∧ property (dealt ++ [item]) next)
    {start : σ} (hstart : property [] start) :
    ∃ final, items.foldlM step start = .ok final ∧ property items final := by
  have hrest (dealt : List α) (state : σ) (h : property dealt state) :
      ∃ final, items.foldlM step state = .ok final ∧ property (dealt ++ items) final := by
    induction items generalizing dealt state with
    | nil => exact ⟨state, rfl, by simpa using h⟩
    | cons item rest ih =>
        obtain ⟨next, hnext, hdealt⟩ := hstep dealt state item (by simp) h
        obtain ⟨final, hfinal, hall⟩ := ih
          (fun dealt state other hmem => hstep dealt state other (by simp [hmem]))
          (dealt ++ [item]) next hdealt
        refine ⟨final, ?_, by simpa using hall⟩
        rw [List.foldlM_cons, hnext]
        exact hfinal
  exact hrest [] start hstart

abbrev Buckets (κ β : Type*) := κ → Option (List β)

namespace Buckets

variable {α β κ κ' : Type*} [DecidableEq κ] [DecidableEq κ']

/-- The bucket of the key is made where there is none. -/
def push (table : Buckets κ β) (key : κ) (value : β) : Buckets κ β :=
  Function.update table key (some ((table key).getD [] ++ [value]))

def collect (entries : List (κ × β)) : Buckets κ β :=
  entries.foldl (fun table entry => table.push entry.1 entry.2) fun _ => none

/-- The values of one key, in order. -/
def bucket (key : κ) (entries : List (κ × β)) : List β :=
  (entries.filter (·.1 = key)).map Prod.snd

/-- The entries of the items that have a key. -/
def entriesOf (keyOf : α → Option κ) (valueOf : α → β) (items : List α) : List (κ × β) :=
  items.filterMap fun item => (keyOf item).map fun key => (key, valueOf item)

theorem collect_concat (entries : List (κ × β)) (key : κ) (value : β) :
    collect (entries ++ [(key, value)]) = (collect entries).push key value :=
  List.foldl_concat _ _ _ _

theorem bucket_concat (key other : κ) (entries : List (κ × β)) (value : β) :
    bucket key (entries ++ [(other, value)]) =
      bucket key entries ++ if other = key then [value] else [] := by
  unfold bucket
  rw [List.filter_append, List.map_append]
  by_cases hsame : other = key
  · simp [hsame]
  · simp [hsame]

/-- A finished table has the buckets that are not empty. -/
theorem collect_apply (entries : List (κ × β)) (key : κ) :
    collect entries key =
      if (bucket key entries).isEmpty then none else some (bucket key entries) := by
  induction entries using List.reverseRecOn with
  | nil => rfl
  | append_singleton entries entry ih =>
      obtain ⟨other, value⟩ := entry
      rw [collect_concat, bucket_concat, push, Function.update_apply]
      by_cases hsame : key = other
      · subst hsame
        rw [if_pos rfl, if_pos rfl, ih]
        cases bucket key entries with
        | nil => rfl
        | cons first rest => rfl
      · rw [if_neg hsame, if_neg (Ne.symm hsame), List.append_nil, ih]

theorem collect_getD (entries : List (κ × β)) (key : κ) :
    (collect entries key).getD [] = bucket key entries := by
  rw [collect_apply]
  cases bucket key entries with
  | nil => rfl
  | cons first rest => rfl

omit [DecidableEq κ] in
theorem entriesOf_concat (keyOf : α → Option κ) (valueOf : α → β) (items : List α) (item : α) :
    entriesOf keyOf valueOf (items ++ [item]) =
      entriesOf keyOf valueOf items ++
        ((keyOf item).map fun key => (key, valueOf item)).toList := by
  unfold entriesOf
  rw [List.filterMap_append]
  cases hkey : keyOf item with
  | none => simp [hkey]
  | some key => simp [hkey]

/-- A loop that pushes the items that have a key and skips the others. -/
theorem foldl_push {keyOf : α → Option κ} {valueOf : α → β}
    {step : Buckets κ β → α → Buckets κ β}
    (hskip : ∀ table item, keyOf item = none → step table item = table)
    (hpush : ∀ table item key, keyOf item = some key →
      step table item = table.push key (valueOf item)) (items : List α) :
    items.foldl step (fun _ => none) = collect (entriesOf keyOf valueOf items) := by
  induction items using List.reverseRecOn with
  | nil => rfl
  | append_singleton items item ih =>
      rw [List.foldl_concat, ih, entriesOf_concat]
      cases hkey : keyOf item with
      | none =>
          rw [hskip _ item hkey, Option.map_none, Option.toList_none, List.append_nil]
      | some key =>
          rw [hpush _ item key hkey]
          exact (collect_concat _ key (valueOf item)).symm

theorem bucket_entriesOf (keyOf : α → Option κ) (valueOf : α → β) (items : List α) (key : κ) :
    bucket key (entriesOf keyOf valueOf items) =
      (items.filter (keyOf · = some key)).map valueOf := by
  induction items with
  | nil => rfl
  | cons item rest ih =>
      unfold bucket entriesOf at ih ⊢
      cases hkey : keyOf item with
      | none => simpa [hkey] using ih
      | some other =>
          by_cases hsame : other = key
          · simpa [hkey, hsame] using ih
          · simpa [hkey, hsame] using ih

theorem collect_isSome_iff (keyOf : α → Option κ) (valueOf : α → β) (items : List α) (key : κ) :
    (collect (entriesOf keyOf valueOf items) key).isSome ↔
      ∃ item ∈ items, keyOf item = some key := by
  rw [collect_apply, bucket_entriesOf, List.isEmpty_map]
  cases hfound : items.filter (keyOf · = some key) with
  | nil =>
      rw [List.filter_eq_nil_iff] at hfound
      simpa using hfound
  | cons item rest =>
      have hmem : item ∈ items.filter (keyOf · = some key) := by simp [hfound]
      rw [List.mem_filter, decide_eq_true_iff] at hmem
      simpa using ⟨item, hmem⟩

/-- The keys in use are renamed one to one: every bucket is found under the new
name of its key, and there are no other buckets. -/
theorem collect_rename {keyOf : α → Option κ} (valueOf : α → β) (items : List α)
    {rename : κ → κ'}
    (hinjective : Set.InjOn rename {key | ∃ item ∈ items, keyOf item = some key}) :
    let old := collect (entriesOf keyOf valueOf items)
    let new := collect (entriesOf (fun item => (keyOf item).map rename) valueOf items)
    Set.BijOn rename {key | (old key).isSome} {key | (new key).isSome} ∧
      ∀ key, (old key).isSome → new (rename key) = old key := by
  intro old new
  have hused : {key | (old key).isSome} = {key | ∃ item ∈ items, keyOf item = some key} := by
    ext key
    exact collect_isSome_iff keyOf valueOf items key
  have hsame : ∀ key, (old key).isSome → new (rename key) = old key := by
    intro key hkey
    change key ∈ {key | (old key).isSome} at hkey
    rw [hused] at hkey
    simp only [old, new, collect_apply, bucket_entriesOf]
    have hfilter : items.filter (fun item => (keyOf item).map rename = some (rename key)) =
        items.filter (fun item => keyOf item = some key) := by
      apply List.filter_congr
      intro item hitem
      rw [decide_eq_decide, Option.map_eq_some_iff]
      constructor
      · rintro ⟨other, hother, hname⟩
        rw [hother, hinjective ⟨item, hitem, hother⟩ hkey hname]
      · intro hother
        exact ⟨key, hother, rfl⟩
    rw [hfilter]
  refine ⟨⟨?_, ?_, ?_⟩, hsame⟩
  · intro key hkey
    change (new (rename key)).isSome
    rw [hsame key hkey]
    exact hkey
  · rw [hused]
    exact hinjective
  · intro name hname
    obtain ⟨item, hitem, hrenamed⟩ := (collect_isSome_iff _ valueOf items name).mp hname
    obtain ⟨key, hkey, rfl⟩ := Option.map_eq_some_iff.mp hrenamed
    exact ⟨key, (collect_isSome_iff keyOf valueOf items key).mpr ⟨item, hitem, hkey⟩, rfl⟩

end Buckets

end Usahp.Library
