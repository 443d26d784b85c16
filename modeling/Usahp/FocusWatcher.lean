import Mathlib.Data.List.Destutter

/-!
The focus watcher, a thread that samples the process id of the frontmost
application every half second and reports it when it differs from the sample
before. A report that is being sent holds the thread up, so it does not sample
meanwhile.

What it reports is its list of samples without repetitions, and without the
first one.
-/

namespace Usahp

/-- The process id that an answer of `NSWorkspace` stands for. There is none
where a class, the workspace or the application is missing. -/
def frontmostPid (processIdentifier : Option Int32) : Option UInt32 :=
  processIdentifier.bind fun pid => if 0 < pid then some pid.toUInt32 else none

/-- `report` is what the thread is sending; `samples` are all it has seen, with
the one from before its loop. -/
structure FocusWatcher where
  lastPid : Option UInt32
  report : Option (Option UInt32)
  samples : List (Option UInt32)

namespace FocusWatcher

def spawn (processIdentifier : Option Int32) : FocusWatcher where
  lastPid := frontmostPid processIdentifier
  report := none
  samples := [frontmostPid processIdentifier]

/-- One turn of the loop, up to the send. -/
def poll (watcher : FocusWatcher) (processIdentifier : Option Int32) : FocusWatcher :=
  let pid := frontmostPid processIdentifier
  if watcher.report.isSome then watcher
  else if pid ≠ watcher.lastPid then
    { lastPid := pid, report := some pid, samples := watcher.samples ++ [pid] }
  else { watcher with samples := watcher.samples ++ [pid] }

/-- The samples that have to be reported. -/
def changes (watcher : FocusWatcher) : List (Option UInt32) :=
  (watcher.samples.destutter (· ≠ ·)).tail

/-- What has been reported, with what is being sent, are the changes. -/
structure Reported (watcher : FocusWatcher) (reports : List (Option UInt32)) : Prop where
  last : watcher.samples.getLast? = some watcher.lastPid
  reports : reports ++ watcher.report.toList = watcher.changes

variable {α : Type*} [DecidableEq α]

theorem head?_destutter' (first : α) (samples : List α) :
    (samples.destutter' (· ≠ ·) first).head? = some first := by
  induction samples with
  | nil => rfl
  | cons next rest ih =>
      rw [List.destutter'_cons]
      split_ifs
      · rfl
      · exact ih

theorem destutter'_concat (first : α) (samples : List α) (sample : α) :
    (samples ++ [sample]).destutter' (· ≠ ·) first =
      samples.destutter' (· ≠ ·) first ++
        if samples.getLastD first = sample then [] else [sample] := by
  induction samples generalizing first with
  | nil =>
      by_cases h : first = sample
      · simp [h]
      · simp [h]
  | cons next rest ih =>
      rw [List.cons_append, List.destutter'_cons, List.destutter'_cons, ih, List.getLastD_cons]
      by_cases h : first = next
      · subst h
        rw [if_neg (not_not.mpr rfl), if_neg (not_not.mpr rfl), ih]
      · rw [if_pos h, if_pos h]
        rfl

theorem destutter_concat {samples : List α} {last : α} (hlast : samples.getLast? = some last)
    (sample : α) :
    (samples ++ [sample]).destutter (· ≠ ·) =
      samples.destutter (· ≠ ·) ++ if last = sample then [] else [sample] := by
  cases samples with
  | nil => cases hlast
  | cons first rest =>
      have hsame : rest.getLastD first = last := by
        rw [List.getLast?_cons] at hlast
        rw [List.getLastD_eq_getLast?]
        exact Option.some.inj hlast
      rw [List.cons_append, List.destutter_cons', List.destutter_cons', destutter'_concat,
        hsame]

theorem getLast?_destutter {samples : List α} {last : α}
    (hlast : samples.getLast? = some last) :
    (samples.destutter (· ≠ ·)).getLast? = some last := by
  induction samples using List.reverseRecOn generalizing last with
  | nil => cases hlast
  | append_singleton samples sample ih =>
      rw [List.getLast?_concat] at hlast
      cases hlast
      cases hbefore : samples.getLast? with
      | none =>
          rw [List.getLast?_eq_none_iff] at hbefore
          rw [hbefore]
          rfl
      | some before =>
          rw [destutter_concat hbefore]
          split_ifs with hsame
          · rw [List.append_nil, ih hbefore, hsame]
          · exact List.getLast?_concat

theorem tail_destutter_concat {samples : List α} {last : α}
    (hlast : samples.getLast? = some last) (sample : α) :
    ((samples ++ [sample]).destutter (· ≠ ·)).tail =
      (samples.destutter (· ≠ ·)).tail ++ if last = sample then [] else [sample] := by
  rw [destutter_concat hlast, List.tail_append_of_ne_nil]
  intro hnil
  have hkept := getLast?_destutter hlast
  rw [hnil] at hkept
  cases hkept

theorem reported_spawn (processIdentifier : Option Int32) :
    (spawn processIdentifier).Reported [] :=
  ⟨rfl, rfl⟩

variable {watcher : FocusWatcher} {reports : List (Option UInt32)}

theorem Reported.poll (h : watcher.Reported reports) (processIdentifier : Option Int32) :
    (watcher.poll processIdentifier).Reported reports := by
  have hchanges := tail_destutter_concat h.last (frontmostPid processIdentifier)
  unfold FocusWatcher.poll
  dsimp only
  split_ifs with hsending hother
  · exact h
  · refine ⟨List.getLast?_concat, ?_⟩
    have hidle : watcher.report = none := by simpa using hsending
    have hreports := h.reports
    rw [hidle, Option.toList_none, List.append_nil] at hreports
    rw [if_neg (Ne.symm hother)] at hchanges
    rw [changes, hchanges, hreports]
    rfl
  · have hsame : watcher.lastPid = frontmostPid processIdentifier :=
      (not_not.mp hother).symm
    refine ⟨hsame ▸ List.getLast?_concat, ?_⟩
    rw [if_pos hsame, List.append_nil] at hchanges
    rw [changes, hchanges]
    exact h.reports

theorem head?_samples_poll {first : Option UInt32}
    (hfirst : watcher.samples.head? = some first) (processIdentifier : Option Int32) :
    (watcher.poll processIdentifier).samples.head? = some first := by
  unfold FocusWatcher.poll
  dsimp only
  split_ifs
  · exact hfirst
  · rw [List.head?_append, hfirst]
    rfl
  · rw [List.head?_append, hfirst]
    rfl

theorem Reported.send (h : watcher.Reported reports) {pid : Option UInt32}
    (hreport : watcher.report = some pid) :
    ({ watcher with report := none } : FocusWatcher).Reported (reports ++ [pid]) := by
  refine ⟨h.last, ?_⟩
  have hreports := h.reports
  rw [hreport] at hreports
  change reports ++ [pid] ++ [] = watcher.changes
  rw [List.append_nil]
  exact hreports

/-- No report repeats the one before, and the first one differs from the first
sample. -/
theorem Reported.isChain (h : watcher.Reported reports) {first : Option UInt32}
    (hfirst : watcher.samples.head? = some first) : (first :: reports).IsChain (· ≠ ·) := by
  have hchanges := List.isChain_destutter (· ≠ ·) watcher.samples
  obtain ⟨rest, hsamples⟩ := List.head?_eq_some_iff.mp hfirst
  have htail := h.reports
  rw [changes, hsamples] at htail
  rw [hsamples, List.destutter_cons'] at hchanges
  rw [List.destutter_cons'] at htail
  rw [← List.cons_head?_tail (head?_destutter' first rest), ← htail, ← List.cons_append]
    at hchanges
  exact hchanges.left_of_append

/-- With nothing being sent, the last report is the last sample. The first sample
is not reported: where no other one followed, there was no report. -/
theorem Reported.latest (h : watcher.Reported reports) (hidle : watcher.report = none)
    {first : Option UInt32} (hfirst : watcher.samples.head? = some first) :
    reports = [] ∧ watcher.lastPid = first ∨ reports.getLast? = some watcher.lastPid := by
  have hreports := h.reports
  rw [hidle, Option.toList_none, List.append_nil, changes] at hreports
  have hkept := getLast?_destutter h.last
  obtain ⟨rest, hsamples⟩ := List.head?_eq_some_iff.mp hfirst
  rw [hsamples, List.destutter_cons'] at hkept hreports
  rw [← List.cons_head?_tail (head?_destutter' first rest), ← hreports] at hkept
  cases reports with
  | nil => exact .inl ⟨rfl, (Option.some.inj hkept).symm⟩
  | cons report later =>
      rw [List.getLast?_cons_cons] at hkept
      exact .inr hkept

end FocusWatcher

end Usahp
