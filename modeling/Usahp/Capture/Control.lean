import Usahp.Library.Toggle
import Usahp.Capture.Backends

/-!
The capture control on Linux, at the grain of its own code: the two passes of
`command_backends` over the backends, the round that takes a failed resume
back, and what a thread does with its device for each command. The daemon
model takes the replies as they come; here they are computed.

The threads share nothing with each other. What one of them does between the
send of a command and its reply is therefore done where the reply is awaited.
-/

namespace Usahp.Capture

open Usahp.Library Usahp.Broker

/-- What `fetch_events` says, call by call, until it would block. -/
inductive Fetches where
  | wouldBlock
  | failed (error : String)
  | events (rest : Fetches)

/-- The loop that empties the device; the events are thrown away. -/
def drain : Fetches → Except String Unit
  | .wouldBlock => .ok ()
  | .failed error => .error error
  | .events rest => drain rest

/-- The part of a thread and its device that one command meets. -/
structure Conduct where
  /-- The thread is still there when the command is sent. -/
  present : Bool
  /-- It gets to the command before it ends. -/
  reads : Bool
  fetches : Fetches
  /-- What the device says when it is grabbed or ungrabbed. -/
  answer : Except String Unit

/-- A thread: the receiver of its control channel, its own variable `grabbed`,
and the grabs and ungrabs it has asked for. -/
structure Evdev where
  listening : Bool
  grabbed : Bool
  toggles : List Toggle
  deriving DecidableEq

namespace Evdev

/-- `grab` or `ungrab`, with the variable that follows it. -/
def toggle (evdev : Evdev) (target : Bool) (answer : Except String Unit) :
    Except String Unit × Evdev :=
  (answer,
    { evdev with
      grabbed := if answer.isOk then target else evdev.grabbed
      toggles := evdev.toggles ++ [⟨target, answer.isOk⟩] })

def pause (evdev : Evdev) (conduct : Conduct) : Except String Unit × Evdev :=
  if evdev.grabbed then evdev.toggle false conduct.answer else (.ok (), evdev)

def resume (evdev : Evdev) (conduct : Conduct) : Except String Unit × Evdev :=
  match drain conduct.fetches with
  | .error error => (.error error, evdev)
  | .ok _ => if evdev.grabbed then (.ok (), evdev) else evdev.toggle true conduct.answer

def obey (evdev : Evdev) (conduct : Conduct) : CaptureCall → Except String Unit × Evdev
  | .pause => evdev.pause conduct
  | .resume => evdev.resume conduct

/-- What the await of a reply yields. A thread that ends drops the sender of the
reply together with its receiver of commands. -/
def acknowledge (evdev : Evdev) (call : CaptureCall) (conduct : Conduct) :
    Except String Unit × Evdev :=
  if conduct.reads then evdev.obey conduct call
  else
    (.error "capture backend did not acknowledge command", { evdev with listening := false })

end Evdev

/-- What the outside sees, in order. -/
inductive Effect (count : Nat) where
  | stored (enabled : Bool)
  | sent (backend : Fin count) (call : CaptureCall)
  | replied (backend : Fin count) (call : CaptureCall) (reply : Except String Unit)

structure CaptureControl (count : Nat) where
  enabled : Bool
  backends : Fin count → Evdev
  effects : List (Effect count)

/-- The local variables of `command_backends`. -/
structure Round (count : Nat) where
  control : CaptureControl count
  replies : List (Fin count)
  firstError : Option String

/-- The value of `command_backends` once every reply is there. -/
def Round.result {count : Nat} (round : Round count) :
    Except String Unit × CaptureControl count :=
  match round.firstError with
  | some error => (.error error, round.control)
  | none => (.ok (), round.control)

namespace CaptureControl

variable {count : Nat}

def store (control : CaptureControl count) (enabled : Bool) : CaptureControl count :=
  { control with enabled, effects := control.effects ++ [.stored enabled] }

/-- Threads that end close their control channels. -/
def outlived (control : CaptureControl count) (conducts : Fin count → Conduct) :
    CaptureControl count :=
  { control with
    backends := fun i =>
      { control.backends i with
        listening := (control.backends i).listening && (conducts i).present } }

/-- One turn of the first loop. -/
def send (call : CaptureCall) (round : Round count) (i : Fin count) : Round count :=
  if (round.control.backends i).listening then
    { round with
      control.effects := round.control.effects ++ [.sent i call]
      replies := round.replies ++ [i] }
  else { round with firstError := round.firstError.or (some "capture backend stopped") }

/-- One turn of the second loop. -/
def await (call : CaptureCall) (conducts : Fin count → Conduct) (round : Round count)
    (i : Fin count) : Round count :=
  let (reply, backend) := (round.control.backends i).acknowledge call (conducts i)
  let error :=
    match reply with
    | .ok _ => none
    | .error error => some error
  { round with
    control.backends := Function.update round.control.backends i backend
    control.effects := round.control.effects ++ [.replied i call reply]
    firstError := round.firstError.or error }

def commandBackends (control : CaptureControl count) (call : CaptureCall)
    (conducts : Fin count → Conduct) : Except String Unit × CaptureControl count :=
  let sent := (List.finRange count).foldl (send call) ⟨control.outlived conducts, [], none⟩
  (sent.replies.foldl (await call conducts) sent).result

def pause (control : CaptureControl count) (conducts : Fin count → Conduct) :
    Except String Unit × CaptureControl count :=
  (control.store false).commandBackends .pause conducts

/-- `compensation` is what the round meets that takes a failed resume back. -/
def resume (control : CaptureControl count) (conducts compensation : Fin count → Conduct) :
    Except String Unit × CaptureControl count :=
  match control.commandBackends .resume conducts with
  | (.error error, failed) => (.error error, (failed.commandBackends .pause compensation).2)
  | (.ok _, resumed) => (.ok (), resumed.store true)

/-- The backends whose control channel is open when a command is sent. -/
def heard (control : CaptureControl count) (conducts : Fin count → Conduct) :
    List (Fin count) :=
  (List.finRange count).filter fun i =>
    (control.backends i).listening && (conducts i).present

end CaptureControl

/-- One backend through a whole round. -/
def Evdev.command (evdev : Evdev) (call : CaptureCall) (conduct : Conduct) :
    Except String Unit × Evdev :=
  if evdev.listening && conduct.present then evdev.acknowledge call conduct
  else (.error "capture backend stopped", { evdev with listening := false })

namespace Evdev

variable (evdev : Evdev) (call : CaptureCall) (conduct : Conduct)

theorem isOk_iff {reply : Except String Unit} : reply.isOk = true ↔ reply = .ok () := by
  cases reply with
  | ok _ => simp [Except.isOk, Except.toBool]
  | error _ => simp [Except.isOk, Except.toBool]

/-- A device has been switched with a purpose each time, and the variable says how
it stands. -/
def Switched (before after : Evdev) : Prop :=
  ∃ toggles, after.toggles = before.toggles ++ toggles ∧
    Toggle.Purposeful before.grabbed toggles ∧
    after.grabbed = Toggle.after before.grabbed toggles

theorem Switched.refl : Switched evdev evdev := ⟨[], by simp, trivial, rfl⟩

theorem Switched.trans {first middle last : Evdev} (h : Switched first middle)
    (hnext : Switched middle last) : Switched first last := by
  obtain ⟨before, hbefore, hearlier, hmiddle⟩ := h
  obtain ⟨after, hafter, hlater, hlast⟩ := hnext
  rw [hmiddle] at hlater hlast
  refine ⟨before ++ after, ?_, Toggle.purposeful_append.mpr ⟨hearlier, hlater⟩, ?_⟩
  · rw [hafter, hbefore, List.append_assoc]
  · rw [hlast, Toggle.after_append]

/-- The state of the device that a command asks for. -/
def wanted : CaptureCall → Bool
  | .pause => false
  | .resume => true

/-- What a command does to the variable and the device: nothing, or one attempt
to bring the device into the wanted state, in which it is not. -/
structure Obeyed (before : Evdev) (call : CaptureCall) (reply : Except String Unit)
    (after : Evdev) : Prop where
  reached : reply = .ok () → after.grabbed = wanted call
  toggles : ∃ toggles, after.toggles = before.toggles ++ toggles ∧
    Toggle.Purposeful before.grabbed toggles ∧
    after.grabbed = Toggle.after before.grabbed toggles ∧
    ∀ toggle ∈ toggles, toggle.target = wanted call

theorem Obeyed.untouched {reply : Except String Unit} {after : Evdev}
    (hgrabbed : after.grabbed = evdev.grabbed) (htoggles : after.toggles = evdev.toggles)
    (hreached : reply = .ok () → evdev.grabbed = wanted call) :
    Obeyed evdev call reply after where
  reached hok := by rw [hgrabbed, hreached hok]
  toggles := ⟨[], by simp [htoggles], trivial, hgrabbed, by simp⟩

theorem Obeyed.switched {before after : Evdev} {reply : Except String Unit}
    (h : Obeyed before call reply after) : Switched before after := by
  obtain ⟨toggles, htoggles, hpurposeful, hgrabbed, -⟩ := h.toggles
  exact ⟨toggles, htoggles, hpurposeful, hgrabbed⟩

/-- A device that is already in the wanted state is left alone. -/
theorem Obeyed.already {before after : Evdev} {reply : Except String Unit}
    (h : Obeyed before call reply after) (hgrabbed : before.grabbed = wanted call) :
    after.toggles = before.toggles := by
  obtain ⟨toggles, htoggles, hpurposeful, -, hwanted⟩ := h.toggles
  cases toggles with
  | nil => simpa using htoggles
  | cons toggle rest => exact absurd (hwanted toggle (by simp)) (hgrabbed ▸ hpurposeful.1)

theorem obeyed_toggle {answer : Except String Unit} (h : evdev.grabbed ≠ wanted call) :
    Obeyed evdev call answer (evdev.toggle (wanted call) answer).2 where
  reached hok := by simp [toggle, isOk_iff.mpr hok]
  toggles := by
    refine ⟨[⟨wanted call, answer.isOk⟩], rfl, ⟨h.symm, trivial⟩, rfl, ?_⟩
    simp

theorem obeyed (evdev : Evdev) (call : CaptureCall) (conduct : Conduct) :
    Obeyed evdev call (evdev.obey conduct call).1 (evdev.obey conduct call).2 := by
  cases call with
  | pause =>
      simp only [obey, pause]
      split_ifs with hgrabbed
      · exact evdev.obeyed_toggle .pause (by simp [wanted, hgrabbed])
      · exact .untouched evdev .pause rfl rfl fun _ => by simpa [wanted] using hgrabbed
  | resume =>
      simp only [obey, resume]
      split
      · exact .untouched evdev .resume rfl rfl (by rintro ⟨⟩)
      · split_ifs with hgrabbed
        · exact .untouched evdev .resume rfl rfl fun _ => hgrabbed
        · exact evdev.obeyed_toggle .resume (by simp [wanted, hgrabbed])

theorem obey_listening : (evdev.obey conduct call).2.listening = evdev.listening := by
  cases call with
  | pause =>
      simp only [obey, pause]
      split_ifs <;> rfl
  | resume =>
      simp only [obey, resume]
      split
      · rfl
      · split_ifs <;> rfl

/-- A whole round does no more than the command. -/
theorem obeyed_command :
    Obeyed evdev call (evdev.command call conduct).1 (evdev.command call conduct).2 := by
  unfold command acknowledge
  split_ifs
  · exact evdev.obeyed call conduct
  · exact .untouched evdev call rfl rfl (by rintro ⟨⟩)
  · exact .untouched evdev call rfl rfl (by rintro ⟨⟩)

/-- When a backend acknowledges a command with success. -/
theorem command_ok_iff :
    (evdev.command call conduct).1 = .ok () ↔
      evdev.listening = true ∧ conduct.present = true ∧ conduct.reads = true ∧
        (call = .resume → drain conduct.fetches = .ok ()) ∧
        (evdev.grabbed ≠ wanted call → conduct.answer = .ok ()) := by
  cases hlistening : evdev.listening <;> cases hpresent : conduct.present <;>
    cases hreads : conduct.reads <;>
    simp [command, acknowledge, hlistening, hpresent, hreads]
  cases call with
  | pause => cases hgrabbed : evdev.grabbed <;> simp [obey, pause, toggle, wanted, hgrabbed]
  | resume =>
      cases hdrain : drain conduct.fetches <;> cases hgrabbed : evdev.grabbed <;>
        simp [obey, resume, toggle, wanted, hgrabbed, hdrain]

end Evdev

/-- The effects of a round: every command is sent before the first reply is
awaited. -/
def roundEffects {count : Nat} (call : CaptureCall) (heard : List (Fin count))
    (reply : Fin count → Except String Unit) : List (Effect count) :=
  heard.map (.sent · call) ++ heard.map fun i => .replied i call (reply i)

namespace CaptureControl

variable {count : Nat} (control : CaptureControl count) (call : CaptureCall)
  (conducts : Fin count → Conduct)

/-- What each backend replies in a round; no reply counts as an error. -/
def reply (i : Fin count) : Except String Unit :=
  ((control.backends i).command call (conducts i)).1

theorem mem_heard {i : Fin count} :
    i ∈ control.heard conducts ↔
      (control.backends i).listening = true ∧ (conducts i).present = true := by
  simp [heard]

/-- The first loop: the backends that do not hear are passed over. -/
theorem foldl_send (round : Round count) (backends : List (Fin count)) :
    backends.foldl (send call) round =
      { control :=
          { round.control with
            effects := round.control.effects ++
              (backends.filter fun i => (round.control.backends i).listening).map
                (.sent · call) }
        replies := round.replies ++
          backends.filter fun i => (round.control.backends i).listening
        firstError := round.firstError.or
          (if ∀ i ∈ backends, (round.control.backends i).listening = true then none
            else some "capture backend stopped") } := by
  induction backends generalizing round with
  | nil => simp
  | cons i rest ih =>
      rw [List.foldl_cons, ih]
      cases hlistening : (round.control.backends i).listening with
      | true => simp [send, hlistening]
      | false => cases hfirst : round.firstError <;> simp [send, hlistening, hfirst]

/-- What the second loop does over some of the backends. -/
structure Awaited (call : CaptureCall) (conducts : Fin count → Conduct)
    (before after : Round count) (backends : List (Fin count)) : Prop where
  enabled : after.control.enabled = before.control.enabled
  untouched : ∀ i, i ∉ backends → after.control.backends i = before.control.backends i
  acknowledged : ∀ i ∈ backends, after.control.backends i =
    ((before.control.backends i).acknowledge call (conducts i)).2
  effects : after.control.effects = before.control.effects ++
    backends.map fun i =>
      .replied i call ((before.control.backends i).acknowledge call (conducts i)).1
  firstError : after.firstError = none ↔ before.firstError = none ∧
    ∀ i ∈ backends, ((before.control.backends i).acknowledge call (conducts i)).1 = .ok ()

theorem awaited_one (round : Round count) (i : Fin count) :
    Awaited call conducts round (await call conducts round i) [i] where
  enabled := rfl
  untouched j hj := Function.update_of_ne (by simpa using hj) _ _
  acknowledged j hj := by
    obtain rfl := List.mem_singleton.mp hj
    exact Function.update_self j _ _
  effects := rfl
  firstError := by
    simp only [await]
    cases hreply : ((round.control.backends i).acknowledge call (conducts i)).1 <;>
      simp [hreply]

/-- The backends that are awaited later are in the state in which the loop
began. -/
theorem Awaited.append {first middle last : Round count} {earlier later : List (Fin count)}
    (hearlier : Awaited call conducts first middle earlier)
    (hlater : Awaited call conducts middle last later)
    (hapart : ∀ i ∈ later, i ∉ earlier) :
    Awaited call conducts first last (earlier ++ later) where
  enabled := hlater.enabled.trans hearlier.enabled
  untouched i hi := by
    simp only [List.mem_append, not_or] at hi
    rw [hlater.untouched i hi.2, hearlier.untouched i hi.1]
  acknowledged i hi := by
    by_cases hmem : i ∈ later
    · rw [hlater.acknowledged i hmem, hearlier.untouched i (hapart i hmem)]
    · have hfirst : i ∈ earlier := by simpa [hmem] using hi
      rw [hlater.untouched i hmem, hearlier.acknowledged i hfirst]
  effects := by
    have hsame : later.map (fun i =>
        Effect.replied i call ((middle.control.backends i).acknowledge call (conducts i)).1) =
        later.map fun i =>
          .replied i call ((first.control.backends i).acknowledge call (conducts i)).1 := by
      apply List.map_congr_left
      intro i hi
      rw [hearlier.untouched i (hapart i hi)]
    rw [hlater.effects, hearlier.effects, hsame]
    simp
  firstError := by
    rw [hlater.firstError, hearlier.firstError]
    have hsame : (∀ i ∈ later,
        ((middle.control.backends i).acknowledge call (conducts i)).1 = .ok ()) ↔
        ∀ i ∈ later, ((first.control.backends i).acknowledge call (conducts i)).1 = .ok () := by
      apply forall₂_congr
      intro i hi
      rw [hearlier.untouched i (hapart i hi)]
    rw [hsame]
    simp only [List.mem_append, or_imp, forall_and, and_assoc]

theorem foldl_await (round : Round count) {backends : List (Fin count)}
    (hnodup : backends.Nodup) :
    Awaited call conducts round (backends.foldl (await call conducts) round) backends := by
  induction backends generalizing round with
  | nil => exact ⟨rfl, fun _ _ => rfl, by simp, by simp, by simp⟩
  | cons i rest ih =>
      obtain ⟨hnot, hrest⟩ := List.nodup_cons.mp hnodup
      apply (awaited_one call conducts round i).append call conducts (ih _ hrest)
      intro j hj
      simp only [List.mem_singleton]
      rintro rfl
      exact hnot hj

/-- A round, backend by backend. -/
structure RoundOf (before : CaptureControl count) (call : CaptureCall)
    (conducts : Fin count → Conduct) (reply : Except String Unit)
    (after : CaptureControl count) : Prop where
  enabled : after.enabled = before.enabled
  backends : ∀ i, after.backends i = ((before.backends i).command call (conducts i)).2
  effects : after.effects = before.effects ++
    roundEffects call (before.heard conducts) (before.reply call conducts)
  ok_iff : reply = .ok () ↔ ∀ i, before.reply call conducts i = .ok ()

/-- A thread that hears the command is as it was when the round began. -/
theorem acknowledge_outlived {i : Fin count} (h : i ∈ control.heard conducts) :
    ((control.outlived conducts).backends i).acknowledge call (conducts i) =
      (control.backends i).command call (conducts i) := by
  obtain ⟨hlistening, hpresent⟩ := (control.mem_heard conducts).mp h
  have hsame : (control.outlived conducts).backends i = control.backends i := by
    simp [outlived, hpresent]
  simp [hsame, Evdev.command, hlistening, hpresent]

theorem command_of_deaf {i : Fin count} (h : i ∉ control.heard conducts) :
    (control.backends i).command call (conducts i) =
      (.error "capture backend stopped", (control.outlived conducts).backends i) := by
  have hclosed : ((control.backends i).listening && (conducts i).present) = false := by
    simpa [heard] using h
  simp [Evdev.command, outlived, hclosed]

/-- After the first loop. -/
def sentAll : Round count where
  control :=
    { control.outlived conducts with
      effects := control.effects ++ (control.heard conducts).map (.sent · call) }
  replies := control.heard conducts
  firstError :=
    if ∀ i, i ∈ control.heard conducts then none else some "capture backend stopped"

theorem foldl_sentAll :
    (List.finRange count).foldl (send call) ⟨control.outlived conducts, [], none⟩ =
      control.sentAll call conducts := by
  rw [foldl_send]
  simp [sentAll, heard, outlived]

theorem commandBackends_round :
    RoundOf control call conducts (control.commandBackends call conducts).1
      (control.commandBackends call conducts).2 := by
  have hnodup : (control.heard conducts).Nodup := (List.nodup_finRange count).filter _
  have hawaited := foldl_await call conducts (control.sentAll call conducts) hnodup
  have hcommand : control.commandBackends call conducts =
      ((control.heard conducts).foldl (await call conducts)
        (control.sentAll call conducts)).result := by
    simp only [commandBackends, foldl_sentAll]
    rfl
  rw [hcommand]
  generalize (control.heard conducts).foldl (await call conducts)
    (control.sentAll call conducts) = answered at hawaited ⊢
  have hheard : ∀ i ∈ control.heard conducts,
      ((control.sentAll call conducts).control.backends i).acknowledge call (conducts i) =
        (control.backends i).command call (conducts i) :=
    fun i hi => control.acknowledge_outlived call conducts hi
  have hcontrol : answered.result.2 = answered.control := by
    unfold Round.result
    split <;> rfl
  constructor
  · rw [hcontrol, hawaited.enabled]
    rfl
  · intro i
    rw [hcontrol]
    by_cases hi : i ∈ control.heard conducts
    · rw [hawaited.acknowledged i hi, hheard i hi]
    · rw [hawaited.untouched i hi, control.command_of_deaf call conducts hi]
      rfl
  · rw [hcontrol, hawaited.effects, roundEffects, ← List.append_assoc]
    congr 1
    apply List.map_congr_left
    intro i hi
    rw [hheard i hi]
    rfl
  · have hresult : answered.result.1 = .ok () ↔ answered.firstError = none := by
      unfold Round.result
      cases answered.firstError <;> simp
    rw [hresult, hawaited.firstError]
    constructor
    · rintro ⟨hall, hok⟩ i
      have hi : i ∈ control.heard conducts := by
        by_contra hdeaf
        have hsome : ¬∀ i, i ∈ control.heard conducts := fun h => hdeaf (h i)
        simp [sentAll, hsome] at hall
      rw [reply, ← hheard i hi]
      exact hok i hi
    · intro hok
      have hall : ∀ i, i ∈ control.heard conducts := by
        intro i
        by_contra hdeaf
        have hreply := hok i
        rw [reply, control.command_of_deaf call conducts hdeaf] at hreply
        cases hreply
      refine ⟨by simp [sentAll, hall], ?_⟩
      intro i hi
      rw [hheard i hi]
      exact hok i

/-- What a pause promises: the flag is down before any backend is commanded, and
every open channel gets the command, whatever the others reply. -/
structure Paused (before : CaptureControl count) (conducts : Fin count → Conduct)
    (reply : Except String Unit) (after : CaptureControl count) : Prop where
  enabled : after.enabled = false
  effects : after.effects = before.effects ++
    .stored false :: roundEffects .pause (before.heard conducts) (before.reply .pause conducts)
  ok_iff : reply = .ok () ↔ ∀ i, before.reply .pause conducts i = .ok ()
  ungrabbed : ∀ i, before.reply .pause conducts i = .ok () →
    (after.backends i).grabbed = false
  already : ∀ i, (before.backends i).grabbed = false →
    (after.backends i).toggles = (before.backends i).toggles

/-- What a resume promises. When it fails, the round of pauses follows, to every
channel that is open then. -/
structure Resumed (before : CaptureControl count) (conducts compensation : Fin count → Conduct)
    (reply : Except String Unit) (after : CaptureControl count) : Prop where
  ok_iff : reply = .ok () ↔ ∀ i, before.reply .resume conducts i = .ok ()
  granted : reply = .ok () → after.enabled = true ∧
    (∀ i, (after.backends i).grabbed = true) ∧
    (∀ i, (before.backends i).grabbed = true →
      (after.backends i).toggles = (before.backends i).toggles) ∧
    after.effects = before.effects ++
      roundEffects .resume (before.heard conducts) (before.reply .resume conducts) ++
      [.stored true]
  failed : reply ≠ .ok () → after.enabled = before.enabled ∧
    ∃ between : CaptureControl count,
      between = (before.commandBackends .resume conducts).2 ∧
      after.effects = before.effects ++
        roundEffects .resume (before.heard conducts) (before.reply .resume conducts) ++
        roundEffects .pause (between.heard compensation)
          (between.reply .pause compensation) ∧
      (∀ i ∈ before.heard conducts, (conducts i).reads = true →
        (compensation i).present = true → i ∈ between.heard compensation) ∧
      (∀ i ∈ between.heard compensation, (compensation i).reads = true →
        ((between.backends i).grabbed = true → (compensation i).answer = .ok ()) →
        (after.backends i).grabbed = false) ∧
      ∀ i, (before.backends i).grabbed = true →
        (between.backends i).toggles = (before.backends i).toggles

namespace RoundOf

variable {control call conducts}
variable {reply : Except String Unit} {after : CaptureControl count}

theorem obeyed (h : RoundOf control call conducts reply after) (i : Fin count) :
    Evdev.Obeyed (control.backends i) call (control.reply call conducts i)
      (after.backends i) := by
  rw [h.backends]
  exact (control.backends i).obeyed_command call (conducts i)

/-- A thread that read the command is still there after the round. -/
theorem listening (h : RoundOf control call conducts reply after) {i : Fin count}
    (hheard : i ∈ control.heard conducts) (hreads : (conducts i).reads = true) :
    (after.backends i).listening = true := by
  obtain ⟨hlistening, hpresent⟩ := (control.mem_heard conducts).mp hheard
  simp [h.backends, Evdev.command, Evdev.acknowledge, hlistening, hpresent, hreads,
    Evdev.obey_listening]

end RoundOf

theorem pause_paused :
    Paused control conducts (control.pause conducts).1 (control.pause conducts).2 := by
  have hround := (control.store false).commandBackends_round .pause conducts
  constructor
  · exact hround.enabled
  · rw [pause, hround.effects]
    exact List.append_assoc control.effects [.stored false] _
  · exact hround.ok_iff
  · intro i hok
    exact (hround.obeyed i).reached hok
  · intro i hgrabbed
    exact (hround.obeyed i).already _ hgrabbed

theorem resume_resumed (compensation : Fin count → Conduct) :
    Resumed control conducts compensation (control.resume conducts compensation).1
      (control.resume conducts compensation).2 := by
  have hround := control.commandBackends_round .resume conducts
  unfold resume
  generalize hresult : control.commandBackends .resume conducts = result at hround ⊢
  obtain ⟨reply, between⟩ := result
  cases reply with
  | ok _ =>
      have hacknowledged := hround.ok_iff.mp rfl
      constructor
      · exact hround.ok_iff
      · intro _
        refine ⟨rfl, ?_, ?_, ?_⟩
        · intro i
          exact (hround.obeyed i).reached (hacknowledged i)
        · intro i hgrabbed
          exact (hround.obeyed i).already _ hgrabbed
        · have heffects : between.effects = _ := hround.effects
          simp only [store, heffects]
      · intro hfailed
        exact absurd rfl hfailed
  | error error =>
      have hback := between.commandBackends_round .pause compensation
      constructor
      · exact hround.ok_iff
      · rintro ⟨⟩
      · intro _
        refine ⟨hback.enabled.trans hround.enabled, between, ?_, ?_, ?_, ?_, ?_⟩
        · rw [hresult]
        · rw [hback.effects, hround.effects]
        · intro i hheard hreads hpresent
          exact (between.mem_heard compensation).mpr
            ⟨hround.listening hheard hreads, hpresent⟩
        · intro i hheard hreads hanswer
          obtain ⟨hlistening, hpresent⟩ := (between.mem_heard compensation).mp hheard
          have hok := ((between.backends i).command_ok_iff .pause (compensation i)).mpr
            ⟨hlistening, hpresent, hreads, by rintro ⟨⟩, by simpa [Evdev.wanted] using hanswer⟩
          exact (hback.obeyed i).reached hok
        · intro i hgrabbed
          exact (hround.obeyed i).already _ hgrabbed

/-- The broker model has the flag only, and takes the reply from outside. -/
def flag (control : CaptureControl count) : Broker.CaptureControl := ⟨control.enabled⟩

theorem pause_flag :
    (flag control).pause (control.pause conducts).1 =
      ((control.pause conducts).1, flag (control.pause conducts).2) := by
  have henabled := (control.pause_paused conducts).enabled
  simp [flag, Broker.CaptureControl.pause, henabled]

theorem resume_flag (compensation : Fin count → Conduct) :
    (flag control).resume (control.resume conducts compensation).1 =
      ((control.resume conducts compensation).1,
        flag (control.resume conducts compensation).2) := by
  have hresumed := control.resume_resumed conducts compensation
  cases hreply : (control.resume conducts compensation).1 with
  | ok _ =>
      obtain ⟨henabled, -⟩ := hresumed.granted hreply
      simp [flag, Broker.CaptureControl.resume, henabled]
  | error error =>
      obtain ⟨henabled, -⟩ := hresumed.failed (by rw [hreply]; rintro ⟨⟩)
      simp [flag, Broker.CaptureControl.resume, henabled]

/-- The first loop is the one of the daemon model: it awaits the same backends,
with the same error so far. -/
theorem sentAll_task (daemon : Daemon count) (handler : Step) (later : List CaptureCall)
    (h : ∀ i, (daemon.backends i).phase.isStopped =
      !((control.backends i).listening && (conducts i).present)) :
    (daemon.commandBackends handler call later).task =
      .commanding handler call (control.sentAll call conducts).replies
        (control.sentAll call conducts).firstError later := by
  have hany : ((List.finRange count).any fun i => (daemon.backends i).phase.isStopped) = true ↔
      ¬∀ i, i ∈ control.heard conducts := by
    simp [h, heard, or_iff_not_imp_left]
  have hsome : (if ((List.finRange count).any fun i => (daemon.backends i).phase.isStopped) = true
      then some "capture backend stopped" else none) =
      (control.sentAll call conducts).firstError := by
    simp only [hany, sentAll]
    split_ifs <;> rfl
  have hawaited : ((List.finRange count).filter fun i =>
      !(daemon.backends i).phase.isStopped) = control.heard conducts := by
    simp only [h, heard, Bool.not_not]
  simp only [Daemon.commandBackends]
  rw [hawaited, hsome]
  rfl

end CaptureControl

/-- The thread of the daemon model does the same with its variable, when the
device there says what is replied here. -/
theorem Evdev.obey_backend (evdev : Evdev) (conduct : Conduct) (call : CaptureCall)
    {backend : Backend} (h : backend.grabbed = evdev.grabbed) :
    (backend.obey call (evdev.obey conduct call).1).1 = (evdev.obey conduct call).1 ∧
      (backend.obey call (evdev.obey conduct call).1).2.grabbed =
        (evdev.obey conduct call).2.grabbed := by
  cases call with
  | pause =>
      cases hgrabbed : evdev.grabbed with
      | true =>
          cases conduct.answer <;>
            simp [Backend.obey, obey, pause, toggle, h, hgrabbed, Except.isOk, Except.toBool]
      | false => simp [Backend.obey, obey, pause, h, hgrabbed]
  | resume =>
      cases hdrain : drain conduct.fetches with
      | error error =>
          simp [Backend.obey, obey, resume, hdrain, h, Except.isOk, Except.toBool]
      | ok _ =>
          cases hgrabbed : evdev.grabbed with
          | true => simp [Backend.obey, obey, resume, hdrain, h, hgrabbed]
          | false =>
              cases hanswer : conduct.answer <;>
                simp [Backend.obey, obey, resume, toggle, hdrain, h, hgrabbed, hanswer,
                  Except.isOk, Except.toBool]

/-- A call of the capture control with what its rounds meet. -/
inductive Request (count : Nat) where
  | pause (conducts : Fin count → Conduct)
  | resume (conducts compensation : Fin count → Conduct)

def CaptureControl.serve {count : Nat} (control : CaptureControl count) :
    Request count → CaptureControl count
  | .pause conducts => (control.pause conducts).2
  | .resume conducts compensation => (control.resume conducts compensation).2

def captureControl {count : Nat} (start : CaptureControl count) :
    Machine (CaptureControl count) (Request count) where
  start
  step := CaptureControl.serve

theorem CaptureControl.serve_switched {count : Nat} (control : CaptureControl count)
    (request : Request count) (i : Fin count) :
    Evdev.Switched (control.backends i) ((control.serve request).backends i) := by
  cases request with
  | pause conducts =>
      have hround := (control.store false).commandBackends_round .pause conducts
      exact (hround.obeyed i).switched
  | resume conducts compensation =>
      have hround := control.commandBackends_round .resume conducts
      simp only [serve, resume]
      generalize control.commandBackends .resume conducts = result at hround ⊢
      obtain ⟨reply, between⟩ := result
      cases reply with
      | ok _ => exact (hround.obeyed i).switched
      | error error =>
          have hback := between.commandBackends_round .pause compensation
          exact .trans (hround.obeyed i).switched (hback.obeyed i).switched

theorem switched_run {count : Nat} (start : CaptureControl count)
    (requests : List (Request count)) (i : Fin count) :
    Evdev.Switched (start.backends i) (((captureControl start).run requests).backends i) := by
  apply Machine.invariant (captureControl start)
    (fun control => Evdev.Switched (start.backends i) (control.backends i))
  · exact .refl _
  · intro control request hswitched
    exact hswitched.trans (control.serve_switched request i)

/-- Pausing is not held up by a backend, resuming is all or nothing, and in a run
of both no device is brought into a state in which it is already. -/
theorem capture_all_or_nothing (count : Nat) :
    (∀ (control : CaptureControl count) (conducts : Fin count → Conduct),
      control.Paused conducts (control.pause conducts).1 (control.pause conducts).2) ∧
    (∀ (control : CaptureControl count) (conducts compensation : Fin count → Conduct),
      control.Resumed conducts compensation (control.resume conducts compensation).1
        (control.resume conducts compensation).2) ∧
    ∀ (start : CaptureControl count) (requests : List (Request count)) (i : Fin count),
      ∃ toggles,
        (((captureControl start).run requests).backends i).toggles =
          (start.backends i).toggles ++ toggles ∧
        Toggle.Purposeful (start.backends i).grabbed toggles ∧
        ((start.backends i).grabbed :: Toggle.reached toggles).IsChain (· ≠ ·) ∧
        (((captureControl start).run requests).backends i).grabbed =
          Toggle.after (start.backends i).grabbed toggles := by
  refine ⟨CaptureControl.pause_paused, CaptureControl.resume_resumed, ?_⟩
  intro start requests i
  obtain ⟨toggles, htoggles, hpurposeful, hgrabbed⟩ := switched_run start requests i
  exact ⟨toggles, htoggles, hpurposeful, hpurposeful.alternates, hgrabbed⟩

end Usahp.Capture
