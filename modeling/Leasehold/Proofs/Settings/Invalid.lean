import Leasehold.Proofs.Settings.Leases

/-!
# Values that cannot be converted

A value of the wrong kind is either an error of the question that reads it or is passed over, as
if its key had no value.  Which of the two it is depends on how the key is read: a number is
refused whenever it cannot be converted, a name only if there is a text that names nothing, and a
real number never.

* `Settings.Fate`: what becomes of a value that cannot be converted.
* `Settings.Demand`: a key with the conversion of its values and the standard one;
  `Settings.Demand.resolve?` is what the settings then say.
* `Settings.Question`: the questions about how locks are kept, with the keys that they read.
* `Settings.Resolved`: every answer is what the demands of its question resolve to.
* `Settings.fate_of_invalid`: refused values are errors, and the ones that are overlooked.
* `Settings.not_rejectsInvalid`: not every value that cannot be converted is an error.
-/

namespace Leasehold

/-- Whether a value has no text: nothing, a list or a table. -/
def Setting.isTextless : Setting → Bool
  | scalar .null _ => true
  | list _ _ => true
  | table _ => true
  | scalar _ _ => false

theorem Setting.toText?_eq_none_iff (value : Setting) :
    value.toText? = none ↔ value.isTextless = true := by
  cases value with
  | scalar scalar source? => cases scalar <;> simp [toText?, isTextless]
  | list items source? => simp [toText?, isTextless]
  | table entries => simp [toText?, isTextless]

/-- Whether a value is a text that is neither a word for a truth value nor a number. -/
def Setting.isNumberless : Setting → Bool
  | scalar (.text text) _ => (wordTruth? text).isNone && (Binary64.ofText? text).isNone
  | _ => false

theorem Setting.toBinary64?_eq_none_iff (value : Setting) :
    value.toBinary64? = none ↔ value.isTextless = true ∨ value.isNumberless = true := by
  cases value with
  | scalar scalar source? =>
      cases scalar with
      | text text => cases hWord : wordTruth? text <;>
          simp [toBinary64?, isTextless, isNumberless, hWord]
      | _ => simp [toBinary64?, isTextless, isNumberless]
  | list items source? => simp [toBinary64?, isTextless]
  | table entries => simp [toBinary64?, isTextless]

namespace Settings

/-! ## Demands -/

/-- **What becomes of a value that cannot be converted**: it is an error, or it counts as no
value. -/
inductive Fate where
  | refused
  | overlooked
  deriving Repr, DecidableEq

/-- A key with the conversion of its values, and what is said where it has none. -/
structure Demand (α : Type) where
  key : Key
  convert : Setting → Except Fate α
  standard : α

/-- A key with what becomes of the values that cannot be converted. -/
structure Need where
  key : Key
  fate? : Setting → Option Fate

namespace Demand

variable {α : Type}

/-- What a text names; what has no text is overlooked. -/
def named (key : Key) (find : String → Option α) (standard : α) : Demand α where
  key := key
  standard := standard
  convert value :=
    match value.toText? with
    | none => .error .overlooked
    | some text =>
      match find text with
      | none => .error .refused
      | some a => .ok a

/-- A number that is not negative and in some range; all else is refused. -/
def number (key : Key) (fits : Nat → Bool) (standard : Nat) : Demand Nat where
  key := key
  standard := standard
  convert value :=
    match value.toInt with
    | .error _ => .error .refused
    | .ok n => if 0 ≤ n ∧ fits n.toNat then .ok n.toNat else .error .refused

/-- A real number; what is none is overlooked. -/
def real (key : Key) (standard : Binary64) : Demand Binary64 where
  key := key
  standard := standard
  convert value :=
    match value.toBinary64? with
    | none => .error .overlooked
    | some x => .ok x

/-- What the settings say: a refused value is an error, and an overlooked one leaves the
standard. -/
def resolve? (demand : Demand α) (settings : Settings) : Option α :=
  match settings.get? demand.key with
  | none => some demand.standard
  | some value =>
    match demand.convert value with
    | .ok a => some a
    | .error .refused => none
    | .error .overlooked => some demand.standard

/-- A demand without the type of its values. -/
def need (demand : Demand α) : Need where
  key := demand.key
  fate? value :=
    match demand.convert value with
    | .ok _ => none
    | .error fate => some fate

/-! ### The demands of the service -/

/-- The interval class of the lock. -/
def interval : Demand IntervalClass := named .jobClass IntervalClass.ofName? .short

/-- The database of the lock table. -/
def database : Demand String := named .lockDatabase some standardDatabase

/-- The lock table. -/
def table : Demand String := named .lockTable some standardTable

/-- How many heartbeats in a row may fail: a number of 32 bits. -/
def failures : Demand Nat :=
  number .maxFailures (fun n => decide (n ≤ Word.maxNat 32)) Manager.Options.standardMaxFailures

/-- How many lost leases may be queued: at least one. -/
def capacity : Demand Nat := number .channelCapacity (fun n => decide (n ≠ 0)) standardCapacity

/-- The strategy of waiting. -/
def strategy : Demand Strategy := named .retryStrategy Strategy.ofName? .fixed

/-- The first ceiling in milliseconds. -/
def initial : Demand Nat := number .retryInitial (fun _ => true) standardInitialMillis

/-- The last ceiling in milliseconds. -/
def most : Demand Nat := number .retryMax (fun _ => true) standardMaxMillis

/-- The growth of the ceiling. -/
def growth : Demand Binary64 := real .retryMultiplier standardMultiplier

/-- The lease of a class in seconds. -/
def lease (interval : IntervalClass) : Demand Nat :=
  number (.lease interval.name) (fun _ => true) (PolicyTable.standard.get interval).lease.seconds

/-- The heartbeat period of a class in seconds. -/
def heartbeat (interval : IntervalClass) : Demand Nat :=
  number (.heartbeat interval.name) (fun _ => true)
    (PolicyTable.standard.get interval).heartbeat.seconds

/-! ### What they resolve to -/

variable {demand : Demand α} {settings : Settings} {value : Setting}

theorem resolve?_of_refused (hValue : settings.get? demand.key = some value)
    (hFate : demand.need.fate? value = some .refused) : demand.resolve? settings = none := by
  simp only [need] at hFate
  split at hFate
  · cases hFate
  · next fate hConvert =>
    obtain rfl := Option.some.inj hFate
    simp only [resolve?, hValue, hConvert]

theorem resolve?_named (key : Key) (find : String → Option α) (standard : α)
    (settings : Settings) :
    (named key find standard).resolve? settings
      = (settings.text? key).elim (some standard) find := by
  simp only [resolve?, text?, named]
  cases settings.get? key with
  | none => rfl
  | some value =>
      simp only [Option.bind_some]
      cases value.toText? with
      | none => rfl
      | some text => cases hFind : find text <;> simp only [Option.elim_some, hFind]

theorem resolve?_number (key : Key) {fits : Nat → Bool} {standard : Nat} (settings : Settings)
    (hStandard : fits standard = true) :
    (number key fits standard).resolve? settings
      = (settings.natural key standard).toOption.filter fits := by
  simp only [resolve?, natural, number]
  cases settings.get? key with
  | none => exact (Option.filter_some_pos hStandard).symm
  | some value =>
      simp only
      cases value.toInt with
      | error mismatch => rfl
      | ok n =>
          by_cases hSign : n < 0
          · have hRefused : ¬ (0 ≤ n ∧ fits n.toNat = true) := fun h => by omega
            simp only [hSign, hRefused, if_true, if_false, Except.toOption, Option.filter_none]
          · have hTaken : 0 ≤ n := by omega
            by_cases hFits : fits n.toNat = true <;>
              simp only [hSign, hTaken, hFits, true_and, Bool.false_eq_true, if_true, if_false,
                Except.toOption, Option.filter_some]

theorem resolve?_natural (key : Key) (standard : Nat) (settings : Settings) :
    (number key (fun _ => true) standard).resolve? settings
      = (settings.natural key standard).toOption := by
  rw [resolve?_number key settings rfl]
  cases (settings.natural key standard).toOption <;> rfl

theorem resolve?_real (key : Key) (standard : Binary64) (settings : Settings) :
    (real key standard).resolve? settings
      = some (((settings.get? key).bind Setting.toBinary64?).getD standard) := by
  simp only [resolve?, real]
  cases settings.get? key with
  | none => rfl
  | some value =>
      simp only [Option.bind_some]
      cases value.toBinary64? <;> rfl

/-! ### Which values they overlook -/

theorem overlooked_named (key : Key) (find : String → Option α) (standard : α) (value : Setting) :
    (named key find standard).need.fate? value = some .overlooked ↔ value.isTextless = true := by
  rw [← Setting.toText?_eq_none_iff]
  simp only [need, named]
  cases value.toText? with
  | none => simp
  | some text =>
      simp only
      cases find text <;> simp

theorem overlooked_number (key : Key) (fits : Nat → Bool) (standard : Nat) (value : Setting) :
    (number key fits standard).need.fate? value ≠ some .overlooked := by
  simp only [need, number]
  cases value.toInt with
  | error mismatch => simp
  | ok n => by_cases hTaken : 0 ≤ n ∧ fits n.toNat = true <;> simp [hTaken]

theorem overlooked_real (key : Key) (standard : Binary64) (value : Setting) :
    (real key standard).need.fate? value = some .overlooked ↔
      value.isTextless = true ∨ value.isNumberless = true := by
  rw [← Setting.toBinary64?_eq_none_iff]
  simp only [need, real]
  cases value.toBinary64? <;> simp

end Demand

/-! ## Questions -/

/-- The questions about how locks are kept. -/
inductive Question where
  | lockClass
  | lockDatabase
  | lockTable
  | maxFailures
  | channelCapacity
  | retryPolicy
  | leasePolicies
  deriving Repr, DecidableEq

/-- What a question reads; the numbers of jittered delays are read under their strategy only. -/
def Question.needs (settings : Settings) : Question → List Need
  | lockClass => [Demand.interval.need]
  | lockDatabase => [Demand.database.need]
  | lockTable => [Demand.table.need]
  | maxFailures => [Demand.failures.need]
  | channelCapacity => [Demand.capacity.need]
  | retryPolicy =>
    Demand.strategy.need ::
      if Demand.strategy.resolve? settings = some .exponential then
        [Demand.initial.need, Demand.most.need, Demand.growth.need]
      else []
  | leasePolicies =>
    [(Demand.lease .short).need, (Demand.heartbeat .short).need, (Demand.lease .medium).need,
      (Demand.heartbeat .medium).need]

/-- Whether a question has an answer other than an error. -/
def Question.answered (settings : Settings) : Question → Bool
  | lockClass => settings.lockClass.isOk
  | lockDatabase => true
  | lockTable => true
  | maxFailures => settings.maxFailures.isOk
  | channelCapacity => settings.channelCapacity.isOk
  | retryPolicy => settings.retryPolicy.isOk
  | leasePolicies => settings.leasePolicies.isOk

/-- How to wait between attempts, as far as the demands say. -/
def demandedDelays? (settings : Settings) : Option RetryPolicy :=
  (Demand.strategy.resolve? settings).bind fun
    | .fixed => some .fixed
    | .exponential =>
      (Demand.initial.resolve? settings).bind fun initial =>
        (Demand.most.resolve? settings).bind fun most =>
          (Demand.growth.resolve? settings).map fun growth =>
            .jittered (.ofMillis initial) (.ofMillis most) growth

/-- The lease policy of a class, as far as the demands say. -/
def demandedLease? (settings : Settings) (interval : IntervalClass) : Option LeasePolicy :=
  ((Demand.lease interval).resolve? settings).bind fun lease =>
    ((Demand.heartbeat interval).resolve? settings).map fun heartbeat =>
      ⟨.ofSeconds lease, .ofSeconds heartbeat⟩

/-- **Settings whose answers are those of the demands**: where a question has an answer, each of
its keys has given the value under it, or the standard one where there is none or it is
overlooked. -/
structure Resolved (settings : Settings) : Prop where
  lockClass : settings.lockClass.toOption = Demand.interval.resolve? settings
  lockDatabase : some settings.lockDatabase = Demand.database.resolve? settings
  lockTable : some settings.lockTable = Demand.table.resolve? settings
  maxFailures : settings.maxFailures.toOption = Demand.failures.resolve? settings
  channelCapacity : settings.channelCapacity.toOption = Demand.capacity.resolve? settings
  retryPolicy :
    settings.retryPolicy.toOption
      = settings.demandedDelays?.filter fun policy => policy.fault?.isNone
  leasePolicies :
    settings.leasePolicies.toOption
      = ((settings.demandedLease? .short).filter fun policy => decide policy.IsValid).bind
          fun short =>
            ((settings.demandedLease? .medium).filter fun policy => decide policy.IsValid).map
              fun medium => ⟨short, medium⟩

section

variable (settings : Settings)

theorem toOption_lockClass : settings.lockClass.toOption = Demand.interval.resolve? settings := by
  rw [Demand.interval, Demand.resolve?_named, Settings.lockClass]
  cases settings.text? .jobClass with
  | none => rfl
  | some text => cases hClass : IntervalClass.ofName? text <;> simp [hClass, Except.toOption]

theorem toOption_maxFailures :
    settings.maxFailures.toOption = Demand.failures.resolve? settings := by
  rw [Demand.failures, Demand.resolve?_number _ _ (by decide), Settings.maxFailures]
  cases settings.natural .maxFailures Manager.Options.standardMaxFailures with
  | error error => rfl
  | ok n => by_cases hFits : n ≤ Word.maxNat 32 <;> simp [within32, hFits, Except.toOption, Option.filter_some]

theorem toOption_channelCapacity :
    settings.channelCapacity.toOption = Demand.capacity.resolve? settings := by
  rw [Demand.capacity, Demand.resolve?_number _ _ (by decide), Settings.channelCapacity]
  cases settings.natural .channelCapacity standardCapacity with
  | error error => rfl
  | ok n => by_cases hZero : n = 0 <;> simp [hZero, Except.toOption, Option.filter_some]

theorem ofName?_fixed : Strategy.ofName? Strategy.fixed.name = some .fixed := by
  have hLower : Strategy.fixed.name.toLower = "fixed" := toLower_eq (by decide)
  rw [Strategy.ofName?, hLower]
  decide

theorem toOption_jitter :
    settings.jitter.toOption
      = (Demand.initial.resolve? settings).bind fun initial =>
          (Demand.most.resolve? settings).bind fun most =>
            (Demand.growth.resolve? settings).map fun growth =>
              .jittered (.ofMillis initial) (.ofMillis most) growth := by
  rw [Demand.initial, Demand.resolve?_natural, Demand.most, Demand.resolve?_natural, Demand.growth,
    Demand.resolve?_real, jitter]
  cases settings.natural .retryInitial standardInitialMillis with
  | error error => rfl
  | ok initial => cases settings.natural .retryMax standardMaxMillis <;> rfl

theorem toOption_uncheckedRetryPolicy :
    settings.uncheckedRetryPolicy.toOption = settings.demandedDelays? := by
  have hStrategy : Demand.strategy.resolve? settings
      = Strategy.ofName? ((settings.text? .retryStrategy).getD Strategy.fixed.name) := by
    rw [Demand.strategy, Demand.resolve?_named]
    cases settings.text? .retryStrategy with
    | none => exact ofName?_fixed.symm
    | some text => rfl
  rw [demandedDelays?, hStrategy, uncheckedRetryPolicy]
  cases Strategy.ofName? ((settings.text? .retryStrategy).getD Strategy.fixed.name) with
  | none => rfl
  | some strategy =>
      cases strategy with
      | fixed => rfl
      | exponential => exact settings.toOption_jitter

theorem toOption_retryPolicy :
    settings.retryPolicy.toOption
      = settings.demandedDelays?.filter fun policy => policy.fault?.isNone := by
  rw [← toOption_uncheckedRetryPolicy, Settings.retryPolicy]
  cases settings.uncheckedRetryPolicy with
  | error error => rfl
  | ok policy =>
      cases hFault : policy.fault? <;>
        simp [RetryPolicy.validate, hFault, Except.toOption, Option.filter_some]

theorem toOption_uncheckedLeasePolicy (interval : IntervalClass) :
    (settings.uncheckedLeasePolicy interval (PolicyTable.standard.get interval)).toOption
      = settings.demandedLease? interval := by
  rw [demandedLease?, Demand.lease, Demand.resolve?_natural, Demand.heartbeat,
    Demand.resolve?_natural, uncheckedLeasePolicy]
  cases settings.natural (.lease interval.name)
      (PolicyTable.standard.get interval).lease.seconds with
  | error error => rfl
  | ok lease =>
      cases settings.natural (.heartbeat interval.name)
        (PolicyTable.standard.get interval).heartbeat.seconds <;> rfl

/-- A class that still has its standard policy gets the demanded one, if that is valid. -/
theorem toOption_overrideClass {table : PolicyTable} {interval : IntervalClass}
    (hGet : table.get interval = PolicyTable.standard.get interval) :
    (settings.overrideClass table interval).toOption
      = ((settings.demandedLease? interval).filter fun policy => decide policy.IsValid).map
          (table.set interval) := by
  rw [← toOption_uncheckedLeasePolicy,
    overrideClass_eq_checked settings (hGet ▸ PolicyTable.isValid_standard interval)]
  cases hPolicy : settings.uncheckedLeasePolicy interval (PolicyTable.standard.get interval) with
  | error error =>
      rw [checkedOverride_of_error (hGet ▸ hPolicy)]
      rfl
  | ok policy =>
      cases hFault : policy.fault? with
      | none =>
          have hValid : policy.IsValid := policy.fault?_eq_none_iff.mp hFault
          rw [checkedOverride_of_isValid (hGet ▸ hPolicy) hValid]
          simp [hValid, Except.toOption, Option.filter_some]
      | some fault =>
          have hInvalid : ¬ policy.IsValid := by simp [← policy.fault?_eq_none_iff, hFault]
          rw [checkedOverride_of_fault? (hGet ▸ hPolicy) hFault]
          simp [hInvalid, Except.toOption, Option.filter_some]

theorem toOption_leasePolicies :
    settings.leasePolicies.toOption
      = ((settings.demandedLease? .short).filter fun policy => decide policy.IsValid).bind
          fun short =>
            ((settings.demandedLease? .medium).filter fun policy => decide policy.IsValid).map
              fun medium => ⟨short, medium⟩ := by
  have hShort := @toOption_overrideClass settings .standard .short rfl
  rw [Settings.leasePolicies]
  cases hFirst : settings.overrideClass .standard .short with
  | error error =>
      rw [hFirst] at hShort
      rw [Option.map_eq_none_iff.mp hShort.symm]
      rfl
  | ok table =>
      rw [hFirst] at hShort
      obtain ⟨short, hDemanded, rfl⟩ := Option.map_eq_some_iff.mp hShort.symm
      rw [hDemanded]
      exact settings.toOption_overrideClass rfl

/-- Every answer is that of the demands. -/
theorem resolved : Resolved settings where
  lockClass := settings.toOption_lockClass
  lockDatabase := by
    rw [Demand.database, Demand.resolve?_named, Settings.lockDatabase]
    cases settings.text? .lockDatabase <;> rfl
  lockTable := by
    rw [Demand.table, Demand.resolve?_named, Settings.lockTable]
    cases settings.text? .lockTable <;> rfl
  maxFailures := settings.toOption_maxFailures
  channelCapacity := settings.toOption_channelCapacity
  retryPolicy := settings.toOption_retryPolicy
  leasePolicies := settings.toOption_leasePolicies

end

/-! ## Refused values are errors -/

theorem isOk_eq_false_of_toOption {ε α : Type} {answer : Except ε α}
    (h : answer.toOption = none) : answer.isOk = false := by
  cases answer with
  | error error => rfl
  | ok a => cases h

section

variable {settings : Settings}

theorem demandedDelays?_of_strategy (h : Demand.strategy.resolve? settings = none) :
    settings.demandedDelays? = none := by
  rw [demandedDelays?, h]
  rfl

/-- Under jittered delays, each of the three numbers is needed. -/
theorem demandedDelays?_of_number
    (hStrategy : Demand.strategy.resolve? settings = some .exponential)
    (h : Demand.initial.resolve? settings = none ∨ Demand.most.resolve? settings = none ∨
      Demand.growth.resolve? settings = none) :
    settings.demandedDelays? = none := by
  rw [demandedDelays?, hStrategy]
  simp only [Option.bind_some]
  rcases h with hInitial | hMost | hGrowth
  · rw [hInitial]
    rfl
  · rw [hMost]
    cases Demand.initial.resolve? settings <;> rfl
  · rw [hGrowth]
    cases Demand.initial.resolve? settings with
    | none => rfl
    | some initial => cases Demand.most.resolve? settings <;> rfl

theorem demandedLease?_of_number {interval : IntervalClass}
    (h : (Demand.lease interval).resolve? settings = none ∨
      (Demand.heartbeat interval).resolve? settings = none) :
    settings.demandedLease? interval = none := by
  rw [demandedLease?]
  rcases h with hLease | hHeartbeat
  · rw [hLease]
    rfl
  · rw [hHeartbeat]
    cases (Demand.lease interval).resolve? settings <;> rfl

theorem retryPolicy_isOk_of_demanded (h : settings.demandedDelays? = none) :
    settings.retryPolicy.isOk = false := by
  refine isOk_eq_false_of_toOption ?_
  rw [toOption_retryPolicy, h]
  rfl

theorem leasePolicies_isOk_of_demanded (interval : IntervalClass)
    (h : settings.demandedLease? interval = none) : settings.leasePolicies.isOk = false := by
  refine isOk_eq_false_of_toOption ?_
  rw [toOption_leasePolicies]
  cases interval with
  | short =>
      rw [h]
      rfl
  | medium =>
      rw [h]
      exact Option.bind_fun_none _

/-- **A refused value is an error** of every question that reads its key. -/
theorem answered_of_refused {question : Question} {need : Need} {value : Setting}
    (hNeed : need ∈ question.needs settings) (hValue : settings.get? need.key = some value)
    (hFate : need.fate? value = some .refused) : question.answered settings = false := by
  -- The key of a demand resolves to nothing, and with it the answer.
  have hNone {α : Type} (demand : Demand α) (hDemand : need = demand.need) :
      demand.resolve? settings = none := by
    subst hDemand
    exact Demand.resolve?_of_refused hValue hFate
  cases question with
  | lockClass =>
      have hClass := hNone _ (List.mem_singleton.mp hNeed)
      exact isOk_eq_false_of_toOption (settings.toOption_lockClass.trans hClass)
  | lockDatabase =>
      have hDatabase := hNone _ (List.mem_singleton.mp hNeed)
      cases settings.resolved.lockDatabase.trans hDatabase
  | lockTable =>
      have hTable := hNone _ (List.mem_singleton.mp hNeed)
      cases settings.resolved.lockTable.trans hTable
  | maxFailures =>
      have hFailures := hNone _ (List.mem_singleton.mp hNeed)
      exact isOk_eq_false_of_toOption (settings.toOption_maxFailures.trans hFailures)
  | channelCapacity =>
      have hCapacity := hNone _ (List.mem_singleton.mp hNeed)
      exact isOk_eq_false_of_toOption (settings.toOption_channelCapacity.trans hCapacity)
  | retryPolicy =>
      refine retryPolicy_isOk_of_demanded ?_
      rcases List.mem_cons.mp hNeed with hStrategy | hNumber
      · exact demandedDelays?_of_strategy (hNone _ hStrategy)
      · -- The numbers are needed under their strategy only.
        split at hNumber
        · next hExponential =>
          refine demandedDelays?_of_number hExponential ?_
          simp only [List.mem_cons, List.not_mem_nil, or_false] at hNumber
          exact hNumber.imp (hNone _) (Or.imp (hNone _) (hNone _))
        · cases hNumber
  | leasePolicies =>
      simp only [Question.needs, List.mem_cons, List.not_mem_nil, or_false] at hNeed
      rcases hNeed with hShort | hShort | hMedium | hMedium
      · exact leasePolicies_isOk_of_demanded .short
          (demandedLease?_of_number (.inl (hNone _ hShort)))
      · exact leasePolicies_isOk_of_demanded .short
          (demandedLease?_of_number (.inr (hNone _ hShort)))
      · exact leasePolicies_isOk_of_demanded .medium
          (demandedLease?_of_number (.inl (hNone _ hMedium)))
      · exact leasePolicies_isOk_of_demanded .medium
          (demandedLease?_of_number (.inr (hNone _ hMedium)))

end

/-! ## Overlooked values -/

/-- The keys that are read as names. -/
def Key.nameKeys : List Key := [.jobClass, .lockDatabase, .lockTable, .retryStrategy]

/-- The values that are overlooked under a key: those without a text where a name is read, and
those that are no number under the growth of the delays. -/
def Overlooks (key : Key) (value : Setting) : Prop :=
  key ∈ Key.nameKeys ∧ value.isTextless = true ∨
    key = .retryMultiplier ∧ (value.isTextless = true ∨ value.isNumberless = true)

section

variable {α : Type} {key : Key} (value : Setting)

theorem overlooks_named (hKey : key ∈ Key.nameKeys) (find : String → Option α) (standard : α) :
    (Demand.named key find standard).need.fate? value = some .overlooked ↔
      Overlooks key value := by
  have hOther : key ≠ .retryMultiplier := by
    rintro rfl
    exact absurd hKey (by decide)
  rw [Demand.overlooked_named, Overlooks]
  simp only [hKey, hOther, true_and, false_and, or_false]

theorem overlooks_number (hKey : key ∉ .retryMultiplier :: Key.nameKeys) (fits : Nat → Bool)
    (standard : Nat) :
    (Demand.number key fits standard).need.fate? value = some .overlooked ↔
      Overlooks key value := by
  obtain ⟨hOther, hName⟩ := not_or.mp fun h => hKey (List.mem_cons.mpr h)
  rw [Overlooks]
  simp only [Demand.overlooked_number, hOther, hName, false_and, or_false]

theorem overlooks_real (standard : Binary64) :
    (Demand.real .retryMultiplier standard).need.fate? value = some .overlooked ↔
      Overlooks .retryMultiplier value := by
  have hName : Key.retryMultiplier ∉ Key.nameKeys := by decide
  rw [Demand.overlooked_real, Overlooks]
  simp only [hName, true_and, false_and, false_or]

/-- What is overlooked depends on the key and the shape of the value only. -/
theorem overlooked_iff {settings : Settings} {question : Question} {need : Need}
    (hNeed : need ∈ question.needs settings) :
    need.fate? value = some .overlooked ↔ Overlooks need.key value := by
  cases question with
  | lockClass | lockDatabase | lockTable =>
      obtain rfl := List.mem_singleton.mp hNeed
      exact overlooks_named value (by decide) _ _
  | maxFailures | channelCapacity =>
      obtain rfl := List.mem_singleton.mp hNeed
      exact overlooks_number value (by decide) _ _
  | retryPolicy =>
      rcases List.mem_cons.mp hNeed with rfl | hNumber
      · exact overlooks_named value (by decide) _ _
      · split at hNumber
        · simp only [List.mem_cons, List.not_mem_nil, or_false] at hNumber
          rcases hNumber with rfl | rfl | rfl
          · exact overlooks_number value (by decide) _ _
          · exact overlooks_number value (by decide) _ _
          · exact overlooks_real value _
        · cases hNumber
  | leasePolicies =>
      simp only [Question.needs, List.mem_cons, List.not_mem_nil, or_false] at hNeed
      rcases hNeed with rfl | rfl | rfl | rfl <;>
        exact overlooks_number value (by decide) _ _

end

/-- Every value that cannot be converted is an error of the questions that read its key. -/
def RejectsInvalid (settings : Settings) : Prop :=
  ∀ question : Question, ∀ need ∈ question.needs settings, ∀ value : Setting,
    settings.get? need.key = some value → need.fate? value ≠ none →
      question.answered settings = false

/-- What is not overlooked is refused. -/
theorem rejectsInvalid_of_not_overlooks {settings : Settings}
    (h : ∀ question : Question, ∀ need ∈ question.needs settings, ∀ value : Setting,
      settings.get? need.key = some value → ¬ Overlooks need.key value) :
    RejectsInvalid settings := by
  intro question need hNeed value hValue hInvalid
  cases hFate : need.fate? value with
  | none => exact absurd hFate hInvalid
  | some fate =>
      cases fate with
      | refused => exact answered_of_refused hNeed hValue hFate
      | overlooked =>
          exact absurd ((overlooked_iff value hNeed).mp hFate) (h question need hNeed value hValue)

/-- **What becomes of values that cannot be converted.**  Every answer is that of the demands, so
that a standard value stands for a key only where it has no value or one that is overlooked.  The
values that are overlooked are those without a text under the keys that are read as names, and
those that are no number under the growth of the delays; a refused value is an error of every
question that reads its key.  So where no value is overlooked, each one that cannot be converted
is an error. -/
theorem fate_of_invalid (settings : Settings) :
    Resolved settings ∧
      (∀ question : Question, ∀ need ∈ question.needs settings, ∀ value : Setting,
        (need.fate? value = some .overlooked ↔ Overlooks need.key value) ∧
          (settings.get? need.key = some value → need.fate? value = some .refused →
            question.answered settings = false)) ∧
      ((∀ question : Question, ∀ need ∈ question.needs settings, ∀ value : Setting,
        settings.get? need.key = some value → ¬ Overlooks need.key value) →
          RejectsInvalid settings) :=
  ⟨settings.resolved,
    fun _ _ hNeed value => ⟨overlooked_iff value hNeed, answered_of_refused hNeed⟩,
    rejectsInvalid_of_not_overlooks⟩

/-- Settings with a word as the growth of jittered delays. -/
def wordedGrowth : Settings where
  root :=
    .table [("clusterlock", .table [("retry", .table
      [("strategy", .scalar (.text "exponential") none),
        ("multiplier", .scalar (.text "fast") none)])])]
  environment := ⟨[]⟩

theorem ofName?_exponential : Strategy.ofName? "exponential" = some .exponential := by
  have hLower : "exponential".toLower = "exponential" := toLower_eq (by decide)
  rw [Strategy.ofName?, hLower]
  decide

theorem toBinary64?_fast : (Setting.scalar (.text "fast") none).toBinary64? = none := by
  have hLower : "fast".toLower = "fast" := toLower_eq (by decide)
  have hReal : Binary64.ofText? "fast" = none := by decide
  simp only [Setting.toBinary64?, Setting.wordTruth?, hLower, hReal]
  rfl

theorem resolve?_wordedGrowth :
    Demand.strategy.resolve? wordedGrowth = some .exponential := by
  rw [Demand.strategy, Demand.resolve?_named]
  exact ofName?_exponential

/-- The word counts as no value: the delays grow by the standard factor. -/
theorem retryPolicy_wordedGrowth :
    wordedGrowth.retryPolicy
      = .ok (.jittered (.ofMillis 1000) (.ofMillis 60000) standardMultiplier) := by
  have hGrowth : wordedGrowth.multiplier = standardMultiplier := by
    have hValue : wordedGrowth.get? .retryMultiplier = some (.scalar (.text "fast") none) := rfl
    rw [multiplier, hValue, Option.bind_some, toBinary64?_fast, Option.getD_none]
  have hInitial : wordedGrowth.natural .retryInitial standardInitialMillis = .ok 1000 := rfl
  have hMost : wordedGrowth.natural .retryMax standardMaxMillis = .ok 60000 := rfl
  have hText : wordedGrowth.text? .retryStrategy = some "exponential" := rfl
  have hFault : (RetryPolicy.jittered (.ofMillis 1000) (.ofMillis 60000) standardMultiplier).fault?
      = none := by decide +kernel
  simp only [retryPolicy, uncheckedRetryPolicy, hText, Option.getD_some, ofName?_exponential,
    jitter, hInitial, hMost, hGrowth, RetryPolicy.validate, hFault]

/-- Not every value that cannot be converted is an error: the word is none. -/
theorem not_rejectsInvalid : ¬ ∀ settings, RejectsInvalid settings := by
  intro hRejects
  have hNeed : Demand.growth.need ∈ Question.needs wordedGrowth .retryPolicy := by
    rw [Question.needs, if_pos resolve?_wordedGrowth]
    simp only [List.mem_cons, true_or, or_true]
  have hFate : Demand.growth.need.fate? (.scalar (.text "fast") none) ≠ none := by
    simp [Demand.need, Demand.growth, Demand.real, toBinary64?_fast]
  have hRefused := hRejects wordedGrowth .retryPolicy _ hNeed _ rfl hFate
  rw [Question.answered, retryPolicy_wordedGrowth] at hRefused
  cases hRefused

end Settings
end Leasehold
