import Leasehold.Proofs.Data.Runs
import Leasehold.Signal.Broadcast

/-!
# Who hears a shutdown

The handles on a broadcast are cloned and dropped, and through any of them a receiver subscribes
or a shutdown is announced, in any order.  A receiver that waits goes on as soon as it finds
something, or when the last handle is gone and nothing can come any more.  What it can find is what
was announced after it subscribed: the flag that keeps whether a shutdown was ever announced is not
asked.

* `Audience`: a broadcast with its handles, and the receivers that have gone on.
* `Audience.Tally`: what the numbers in a broadcast count.
* `Audience.Standing`: how far one receiver has come since it subscribed; runs keep it.
* `Audience.resolves_iff`: which receivers go on.
* `Audience.shutdown_unheard`: one that waits after the shutdown.
-/

namespace Leasehold

/-- A broadcast with the number of handles on it and the receivers that have gone on. -/
structure Audience where
  broadcast : Broadcast
  handles : Nat
  roused : List Nat
  deriving Repr, DecidableEq

namespace Audience

/-- What is done with a handle, or by a receiver that waits. -/
inductive Event where
  | clone
  | drop
  | subscribe
  | announce
  | receive (receiver : Nat)
  deriving Repr, DecidableEq

/-- One handle on a silent broadcast. -/
def opened : Audience := ⟨.silent, 1, []⟩

/-- What becomes of an audience through one of its handles. -/
def through (audience : Audience) : Event → Audience
  | .clone => { audience with handles := audience.handles + 1 }
  | .drop => { audience with handles := audience.handles - 1 }
  | .subscribe => { audience with broadcast := audience.broadcast.subscribe.2 }
  | .announce => { audience with broadcast := audience.broadcast.announce }
  | .receive _ => audience

/-- One event; `none` if it cannot happen.  A receiver that looks goes on unless it finds nothing
and something may still come. -/
def step? (audience : Audience) : Event → Option Audience
  | .receive receiver =>
    (audience.broadcast.receive? receiver).map fun (notice, broadcast) =>
      { audience with
        broadcast := broadcast
        roused := if notice = .empty ∧ 0 < audience.handles then audience.roused
          else audience.roused ++ [receiver] }
  | event => if 0 < audience.handles then some (audience.through event) else none

/-- A run of events. -/
def run? (audience : Audience) (events : List Event) : Option Audience :=
  runs? step? audience events

/-- **A receiver does not wait for ever**: it has gone on, or it goes on when it looks again. -/
def Resolves (audience : Audience) (receiver : Nat) : Prop :=
  ∃ next, audience.step? (.receive receiver) = some next ∧ receiver ∈ next.roused

/-! ## One event -/

/-- The audience after a receiver with some announcements behind it has looked. -/
def listened (audience : Audience) (receiver behind : Nat) : Audience :=
  let found := Broadcast.look audience.broadcast.announced behind
  { audience with
    broadcast := { audience.broadcast with
      receivers := audience.broadcast.receivers.set receiver found.2 }
    roused := if found.1 = .empty ∧ 0 < audience.handles then audience.roused
      else audience.roused ++ [receiver] }

/-- The two kinds of events by what they need and what they leave. -/
inductive Step (audience : Audience) : Event → Audience → Prop where
  | through {event : Event} (hEvent : ∀ receiver, event ≠ .receive receiver)
      (hHandles : 0 < audience.handles) : Step audience event (audience.through event)
  | listened {receiver behind : Nat}
      (hReceiver : audience.broadcast.receivers[receiver]? = some behind) :
      Step audience (.receive receiver) (audience.listened receiver behind)

variable {audience next : Audience} {event : Event} {receiver behind : Nat}

/-- A receiver that is there can look. -/
theorem step?_receive (h : audience.broadcast.receivers[receiver]? = some behind) :
    audience.step? (.receive receiver) = some (audience.listened receiver behind) := by
  simp only [step?, Broadcast.receive?, h, Option.map_some]
  rfl

theorem step_of_step? (h : audience.step? event = some next) : Step audience event next := by
  cases event with
  | receive receiver =>
      cases hReceiver : audience.broadcast.receivers[receiver]? with
      | none => simp [step?, Broadcast.receive?, hReceiver] at h
      | some behind =>
          rw [step?_receive hReceiver] at h
          obtain rfl := Option.some.inj h
          exact .listened hReceiver
  | _ =>
      simp only [step?] at h
      split at h
      · next hHandles =>
        obtain rfl := Option.some.inj h
        exact .through nofun hHandles
      · cases h

/-- A receiver finds nothing exactly if it has everything behind it. -/
theorem look_eq_empty_iff (announced behind : Nat) :
    (Broadcast.look announced behind).1 = .empty ↔ announced ≤ behind := by
  unfold Broadcast.look
  split
  · simp [*]
  · split <;> simp [*]

/-- Who has gone on after a receiver has looked. -/
theorem mem_roused_listened (other : Nat) :
    other ∈ (audience.listened receiver behind).roused ↔
      other ∈ audience.roused ∨
        other = receiver ∧ (behind < audience.broadcast.announced ∨ audience.handles = 0) := by
  simp only [listened, look_eq_empty_iff]
  split
  · next hStill =>
    have hNone : ¬ (behind < audience.broadcast.announced ∨ audience.handles = 0) := by omega
    simp [hNone]
  · next hFound =>
    have hSome : behind < audience.broadcast.announced ∨ audience.handles = 0 := by omega
    simp [hSome]

/-! ## What is counted -/

/-- **What the numbers count.**  The announcements are those of the run, the flag is up exactly if
there was one, and only receivers that have subscribed go on. -/
structure Tally (events : List Event) (audience : Audience) : Prop where
  announced : audience.broadcast.announced = events.count .announce
  triggered : audience.broadcast.triggered = true ↔ .announce ∈ events
  receivers : audience.broadcast.receivers.length = events.count .subscribe
  roused : ∀ receiver ∈ audience.roused, receiver < audience.broadcast.receivers.length

theorem tally_opened : Tally [] opened := by
  constructor <;> simp [opened, Broadcast.silent]

theorem Tally.step {events : List Event} (h : Tally events audience)
    (hStep : Step audience event next) : Tally (events ++ [event]) next := by
  cases hStep with
  | @listened receiver behind hReceiver =>
      obtain ⟨hBound, -⟩ := List.getElem?_eq_some_iff.mp hReceiver
      refine ⟨?_, ?_, ?_, fun other hOther => ?_⟩
      · simpa [listened] using h.announced
      · simpa [listened] using h.triggered
      · simpa [listened] using h.receivers
      · simp only [listened, List.length_set]
        rcases (mem_roused_listened other).mp hOther with hOld | ⟨rfl, -⟩
        · exact h.roused other hOld
        · exact hBound
  | through hEvent hHandles =>
      cases event with
      | receive receiver => exact absurd rfl (hEvent receiver)
      | clone | drop => exact ⟨by simpa [through] using h.announced, by simpa [through] using h.triggered,
          by simpa [through] using h.receivers, h.roused⟩
      | subscribe =>
          refine ⟨?_, ?_, ?_, fun other hOther => ?_⟩
          · simpa [through, Broadcast.subscribe] using h.announced
          · simpa [through, Broadcast.subscribe] using h.triggered
          · simpa [through, Broadcast.subscribe] using h.receivers
          · simpa [through, Broadcast.subscribe] using Nat.lt_succ_of_lt (h.roused other hOther)
      | announce =>
          refine ⟨?_, ?_, ?_, h.roused⟩
          · simpa [through, Broadcast.announce] using h.announced
          · simp [through, Broadcast.announce]
          · simpa [through, Broadcast.announce] using h.receivers

theorem tally_of_run {events : List Event} (hRun : opened.run? events = some audience) :
    Tally events audience :=
  runs?_induction (motive := Tally) tally_opened
    (fun _ _ _ _ _ h hStep => h.step (step_of_step? hStep)) hRun

/-! ## One receiver -/

/-- **How far a receiver has come** in the events since it subscribed, when it had all earlier
announcements behind it: it still waits, with no announcement heard, or it went on because there
was one or because all handles are gone. -/
inductive Standing (receiver start : Nat) (events : List Event) (audience : Audience) : Prop where
  | waits (hReceiver : audience.broadcast.receivers[receiver]? = some start)
      (hAnnounced : audience.broadcast.announced = start + events.count .announce)
      (hWaits : receiver ∉ audience.roused)
  | went (hReceiver : receiver < audience.broadcast.receivers.length)
      (hWent : receiver ∈ audience.roused)
      (hCause : .announce ∈ events ∨ audience.handles = 0)

namespace Standing

variable {start : Nat} {events : List Event}

/-- What is done through a handle lets no receiver go on. -/
theorem through (h : Standing receiver start events audience)
    (hEvent : ∀ receiver, event ≠ .receive receiver) (hHandles : 0 < audience.handles) :
    Standing receiver start (events ++ [event]) (audience.through event) := by
  cases h with
  | waits hReceiver hAnnounced hWaits =>
      obtain ⟨hBound, -⟩ := List.getElem?_eq_some_iff.mp hReceiver
      cases event with
      | receive receiver => exact absurd rfl (hEvent receiver)
      | clone | drop => exact .waits hReceiver (by simpa [Audience.through] using hAnnounced) hWaits
      | subscribe =>
          refine .waits ?_ (by simpa [Audience.through, Broadcast.subscribe] using hAnnounced) hWaits
          exact (List.getElem?_append_left hBound).trans hReceiver
      | announce =>
          refine .waits hReceiver ?_ hWaits
          simp [Audience.through, Broadcast.announce, hAnnounced, Nat.add_assoc]
  | went hReceiver hWent hCause =>
      -- There is a handle, so that the receiver went on because of an announcement.
      have hHeard : .announce ∈ events ++ [event] :=
        List.mem_append_left _ (hCause.resolve_right (Nat.ne_of_gt hHandles))
      cases event with
      | receive receiver => exact absurd rfl (hEvent receiver)
      | subscribe =>
          refine .went ?_ hWent (.inl hHeard)
          simpa [Audience.through, Broadcast.subscribe] using Nat.lt_succ_of_lt hReceiver
      | _ => exact .went hReceiver hWent (.inl hHeard)

/-- A receiver that looks goes on if there was an announcement, or if all handles are gone. -/
theorem listened (h : Standing receiver start events audience) {other behind : Nat}
    (hOther : audience.broadcast.receivers[other]? = some behind) :
    Standing receiver start (events ++ [.receive other]) (audience.listened other behind) := by
  cases h with
  | waits hReceiver hAnnounced hWaits =>
      have hCount : (audience.listened other behind).broadcast.announced
          = start + (events ++ [Event.receive other]).count .announce := by
        simpa [Audience.listened] using hAnnounced
      by_cases hSame : other = receiver
      · subst hSame
        obtain rfl : start = behind := Option.some.inj (hReceiver.symm.trans hOther)
        obtain ⟨hBound, -⟩ := List.getElem?_eq_some_iff.mp hReceiver
        by_cases hCause : start < audience.broadcast.announced ∨ audience.handles = 0
        · refine .went ?_ ((mem_roused_listened other).mpr (.inr ⟨rfl, hCause⟩)) ?_
          · simpa only [Audience.listened, List.length_set] using hBound
          · refine hCause.imp_left fun hSome => List.mem_append_left _ ?_
            exact List.count_pos_iff.mp (by omega)
        · -- Nothing was announced since, so that the receiver stands where it stood.
          have hNothing : Broadcast.look audience.broadcast.announced start = (.empty, start) :=
            if_pos (by omega)
          refine .waits ?_ hCount fun hRoused => ?_
          · simp only [Audience.listened, hNothing]
            exact List.getElem?_set_self hBound
          · rcases (mem_roused_listened other).mp hRoused with hOld | ⟨-, hNew⟩
            · exact hWaits hOld
            · exact hCause hNew
      · refine .waits ?_ hCount fun hRoused => ?_
        · exact (List.getElem?_set_ne hSame).trans hReceiver
        · rcases (mem_roused_listened receiver).mp hRoused with hOld | ⟨hReceiver, -⟩
          · exact hWaits hOld
          · exact hSame hReceiver.symm
  | went hReceiver hWent hCause =>
      refine .went ?_ ((mem_roused_listened receiver).mpr (.inl hWent)) ?_
      · simpa only [Audience.listened, List.length_set] using hReceiver
      · exact hCause.imp_left (List.mem_append_left _)

theorem step (h : Standing receiver start events audience) (hStep : Step audience event next) :
    Standing receiver start (events ++ [event]) next := by
  cases hStep with
  | through hEvent hHandles => exact h.through hEvent hHandles
  | listened hReceiver => exact h.listened hReceiver

/-- A receiver goes on exactly if there was an announcement, or if all handles are gone. -/
theorem resolves (h : Standing receiver start events audience) :
    audience.Resolves receiver ↔ .announce ∈ events ∨ audience.handles = 0 := by
  have hLooks : ∀ {behind : Nat}, audience.broadcast.receivers[receiver]? = some behind →
      (audience.Resolves receiver ↔ receiver ∈ (audience.listened receiver behind).roused) := by
    intro behind hReceiver
    rw [Resolves, step?_receive hReceiver]
    simp
  cases h with
  | waits hReceiver hAnnounced hWaits =>
      have hSome : .announce ∈ events ↔ 0 < events.count .announce := List.count_pos_iff.symm
      rw [hLooks hReceiver, mem_roused_listened, hAnnounced, hSome]
      simp only [hWaits, false_or, true_and]
      omega
  | went hReceiver hWent hCause =>
      rw [hLooks (List.getElem?_eq_getElem hReceiver), mem_roused_listened]
      exact iff_of_true (.inl hWent) hCause

end Standing

/-- A receiver begins where the announcements have come to. -/
theorem Tally.standing {events : List Event} (h : Tally events audience) :
    Standing (events.count .subscribe) audience.broadcast.announced []
      (audience.through .subscribe) := by
  refine .waits ?_ rfl fun hRoused => ?_
  · simp [through, Broadcast.subscribe, ← h.receivers]
  · exact Nat.lt_irrefl _ (h.receivers ▸ h.roused _ hRoused)

/-! ## Which receivers go on -/

/-- **Who hears a shutdown.**  Take any run, and any receiver of it: the one that subscribed after
the events `before`.  It goes on exactly if a shutdown was announced after it subscribed, through
whatever handle, or if all handles are gone; so it does not go on before any announcement while
there is a handle.  The flag is up exactly if a shutdown was announced at any time. -/
theorem resolves_iff {before after : List Event} {audience : Audience}
    (hRun : opened.run? (before ++ .subscribe :: after) = some audience) :
    (audience.Resolves (before.count .subscribe) ↔ .announce ∈ after ∨ audience.handles = 0) ∧
      (audience.broadcast.triggered = true ↔ .announce ∈ before ∨ .announce ∈ after) := by
  obtain ⟨early, opening, hOccurs⟩ := Occurs.exists_of_run rfl hRun
  have hOpening : opening = early.through .subscribe := by
    cases step_of_step? hOccurs.step with
    | through => rfl
  have hStanding : Standing (before.count .subscribe) early.broadcast.announced after audience := by
    refine runs?_induction (motive := Standing (before.count .subscribe) early.broadcast.announced)
      ?_ (fun _ _ _ _ _ h hStep => h.step (step_of_step? hStep)) (hOccurs.rest hRun)
    rw [hOpening]
    exact (tally_of_run hOccurs.run).standing
  refine ⟨hStanding.resolves, ?_⟩
  rw [(tally_of_run hRun).triggered]
  simp

/-- A shutdown between two subscriptions reaches the first receiver only. -/
theorem resolves_before_shutdown :
    ∃ audience, opened.run? [.clone, .subscribe, .announce, .drop, .subscribe] = some audience ∧
      audience.Resolves 0 ∧ ¬ audience.Resolves 1 ∧ audience.broadcast.triggered = true := by
  have hRun : opened.run? [.clone, .subscribe, .announce, .drop, .subscribe]
      = some ⟨⟨1, true, [0, 1]⟩, 1, []⟩ := rfl
  have hFirst := resolves_iff (show opened.run?
    ([.clone] ++ .subscribe :: [.announce, .drop, .subscribe]) = _ from hRun)
  have hSecond := resolves_iff (show opened.run?
    ([.clone, .subscribe, .announce, .drop] ++ .subscribe :: []) = _ from hRun)
  exact ⟨_, hRun, hFirst.1.mpr (by decide), fun hResolves => absurd (hSecond.1.mp hResolves)
    (by decide), hFirst.2.mpr (by decide)⟩

/-- **A shutdown is never lost**: once it was announced, every receiver goes on, whenever it has
subscribed. -/
def NeverLost : Prop :=
  ∀ before after audience, opened.run? (before ++ .subscribe :: after) = some audience →
    .announce ∈ before ∨ .announce ∈ after → audience.Resolves (before.count .subscribe)

/-- **A shutdown that is lost.**  The listener has a clone, announces the shutdown it was waiting
for and ends, before the service subscribes: the service waits for ever. -/
theorem shutdown_unheard : ¬ NeverLost := by
  intro hNever
  obtain ⟨next, hStep, hRoused⟩ := hNever [.clone, .announce, .drop] [] _ rfl (.inl (by decide))
  cases hStep
  cases hRoused

end Audience
end Leasehold
