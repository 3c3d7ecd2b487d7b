import Leasehold.Proofs.Settings.Naming
import Leasehold.Proofs.Settings.Writing
import Leasehold.Settings.Reading

/-!
# Standard values

A key of the service that has no value is read as if it had a standard one.  The standard values
can therefore be seen as a layer below all others: once they are written wherever there is no
value, every question about the service has the same answer as before.

* `Settings.Key.own`: the keys of the service.
* `Settings.Key.standard?`: the standard value of a key that has one.
* `Settings.completed`: settings with the standard values where they have none.
* `Settings.SameAnswers`: settings that say the same about the service.
* `Settings.sameAnswers_completed`: the standard values say nothing new.
-/

namespace Leasehold
namespace Settings

open Setting (Path writeAll lastAt? ClearOf)

/-! ## The keys of the service -/

namespace Key

/-- The keys that begin with the name of the service. -/
def own : List Key :=
  [identity, storageMode, jobName, jobClass, jobCommand, lockDatabase, lockTable, maxFailures,
    retryStrategy, retryInitial, retryMax, retryMultiplier, channelCapacity, shutdownTimeout,
    logPath, logLevel, logConsole, logFile, logRotation, lease IntervalClass.short.name,
    heartbeat IntervalClass.short.name, lease IntervalClass.medium.name,
    heartbeat IntervalClass.medium.name]

/-- The names of a key as a path. -/
def path (key : Key) : Path := .ofNames key.names

/-- The path of one key is that of another, or parts from its names. -/
def apart (key other : Key) : Bool := decide (key = other) || Path.parts key.path other.names

theorem apart_iff {key other : Key} :
    key.apart other = true ↔ key = other ∨ Path.parts key.path other.names = true := by
  rw [apart, Bool.or_eq_true, decide_eq_true_eq]

theorem own_apart : ∀ key ∈ own, ∀ other ∈ own, key.apart other = true := by decide

theorem own_names : ∀ key ∈ own, key.names ≠ [] := by decide

theorem path_inj {key other : Key} (h : key.path = other.path) : key = other := by
  have hNames : key.names = other.names :=
    (List.map_inj_right fun _ _ => Setting.Step.name.inj).mp h
  cases key
  cases other
  exact congrArg Key.mk hNames

end Key

/-- What is written at one key is found there, or does not touch the other. -/
theorem clear_of_apart {key other : Key} {value : Setting} (hLeaf : value.isLeaf = true)
    (h : other.apart key = true) :
    other.path = .ofNames key.names ∧ value.isLeaf = true ∨
      Path.parts other.path key.names = true := by
  refine (Key.apart_iff.mp h).imp_left ?_
  rintro rfl
  exact ⟨rfl, hLeaf⟩

/-! ## The standard values -/

/-- The keys with a standard value. -/
def Key.standards : List (Key × Setting.Scalar) :=
  [(.jobClass, .text IntervalClass.short.name), (.lockDatabase, .text standardDatabase),
    (.lockTable, .text standardTable), (.maxFailures, .int Manager.Options.standardMaxFailures),
    (.retryStrategy, .text Strategy.fixed.name), (.retryInitial, .int standardInitialMillis),
    (.retryMax, .int standardMaxMillis), (.retryMultiplier, .real standardMultiplier),
    (.channelCapacity, .int standardCapacity), (.shutdownTimeout, .int standardShutdownSeconds),
    (.logLevel, .text "info"), (.logConsole, .bool true), (.logFile, .bool false),
    (.logRotation, .text "daily"),
    (.lease IntervalClass.short.name, .int PolicyTable.standard.short.lease.seconds),
    (.heartbeat IntervalClass.short.name, .int PolicyTable.standard.short.heartbeat.seconds),
    (.lease IntervalClass.medium.name, .int PolicyTable.standard.medium.lease.seconds),
    (.heartbeat IntervalClass.medium.name, .int PolicyTable.standard.medium.heartbeat.seconds)]

/-- The standard value of a key that has one. -/
def Key.standard? (key : Key) : Option Setting :=
  (Key.standards.lookup key).map fun scalar => .scalar scalar none

/-- The standard values of the keys that have no value. -/
def standardWrites (settings : Settings) : List (Path × Setting) :=
  Key.standards.filterMap fun (key, scalar) =>
    if (settings.get? key).isNone then some (key.path, .scalar scalar none) else none

/-- The settings with the standard values where they have none. -/
def completed (settings : Settings) : Settings :=
  { settings with root := writeAll settings.standardWrites settings.root }

/-- In a list with every name once, an entry is what is found under its name. -/
theorem lookup_of_mem {α β : Type} [BEq α] [LawfulBEq α] {list : List (α × β)}
    (hNodup : (list.map Prod.fst).Nodup) {entry : α × β} (h : entry ∈ list) :
    list.lookup entry.1 = some entry.2 := by
  induction list with
  | nil => cases h
  | cons first rest ih =>
      obtain ⟨hFresh, hRest⟩ := List.nodup_cons.mp hNodup
      rcases List.mem_cons.mp h with rfl | hLater
      · exact List.lookup_cons_self
      · have hOther : (entry.1 == first.1) = false :=
          beq_eq_false_iff_ne.mpr fun hSame => hFresh (hSame ▸ List.mem_map_of_mem hLater)
        rw [List.lookup_cons, hOther]
        exact ih hRest hLater

theorem mem_of_lookup {α β : Type} [BEq α] [LawfulBEq α] {list : List (α × β)} {name : α}
    {value : β} (h : list.lookup name = some value) : (name, value) ∈ list := by
  obtain ⟨before, after, rfl, -⟩ := List.lookup_eq_some_iff.mp h
  exact List.mem_append_right before List.mem_cons_self

theorem Key.nodup_standards : (standards.map Prod.fst).Nodup := by decide

theorem Key.standards_own : ∀ key ∈ standards.map Prod.fst, key ∈ own := by decide

theorem mem_standardWrites {settings : Settings} {path : Path} {value : Setting} :
    (path, value) ∈ settings.standardWrites ↔
      ∃ key, (settings.get? key).isNone = true ∧ key.standard? = some value ∧ path = key.path := by
  rw [standardWrites, List.mem_filterMap]
  constructor
  · rintro ⟨⟨key, scalar⟩, hMem, hWrite⟩
    simp only at hWrite
    split at hWrite
    · next hNone =>
      obtain ⟨rfl, rfl⟩ := Prod.mk.inj (Option.some.inj hWrite)
      refine ⟨key, hNone, ?_, rfl⟩
      rw [Key.standard?, lookup_of_mem Key.nodup_standards hMem]
      rfl
    · cases hWrite
  · rintro ⟨key, hNone, hStandard, rfl⟩
    obtain ⟨scalar, hLookup, rfl⟩ := Option.map_eq_some_iff.mp hStandard
    exact ⟨(key, scalar), mem_of_lookup hLookup, if_pos hNone⟩

theorem Key.mem_own_of_standard? {key : Key} {value : Setting} (h : key.standard? = some value) :
    key ∈ own ∧ value.isLeaf = true := by
  obtain ⟨scalar, hLookup, rfl⟩ := Option.map_eq_some_iff.mp h
  exact ⟨standards_own key (List.mem_map_of_mem (mem_of_lookup hLookup)), rfl⟩

theorem clearOf_standardWrites (settings : Settings) {key : Key} (hKey : key ∈ Key.own) :
    ClearOf key.names settings.standardWrites := by
  rintro ⟨path, value⟩ hWrite
  obtain ⟨other, -, hStandard, rfl⟩ := mem_standardWrites.mp hWrite
  obtain ⟨hOther, hLeaf⟩ := Key.mem_own_of_standard? hStandard
  exact clear_of_apart hLeaf (Key.own_apart other hOther key hKey)

/-- The completed settings have the values of the others, and standard ones where these have
none. -/
theorem get?_completed (settings : Settings) {key : Key} (hKey : key ∈ Key.own) :
    settings.completed.get? key = (settings.get? key).or key.standard? := by
  -- What is written at the key is its standard value, unless it has a value.
  have hLast : lastAt? key.names settings.standardWrites
      = if (settings.get? key).isNone then key.standard? else none := by
    refine Setting.lastAt?_eq_of_mem_iff fun value => mem_standardWrites.trans ?_
    constructor
    · rintro ⟨other, hNone, hStandard, hPath⟩
      obtain rfl : key = other := Key.path_inj hPath
      rw [if_pos hNone, hStandard]
    · intro hSome
      split at hSome
      · next hNone => exact ⟨key, hNone, hSome, rfl⟩
      · cases hSome
  refine (Setting.follow?_writeAll (clearOf_standardWrites settings hKey)
    (Key.own_names key hKey) settings.root).trans ?_
  rw [hLast]
  change Option.or _ (settings.get? key) = _
  cases settings.get? key with
  | none => exact Option.or_none
  | some value => rfl

/-! ## What the settings say -/

/-- **Settings that say the same** about the service. -/
structure SameAnswers (settings other : Settings) : Prop where
  storageMode : other.storageMode = settings.storageMode
  lockName : other.lockName = settings.lockName
  lockClass : other.lockClass = settings.lockClass
  jobCommand : other.jobCommand = settings.jobCommand
  channelCapacity : other.channelCapacity = settings.channelCapacity
  shutdownTimeout : other.shutdownTimeout = settings.shutdownTimeout
  managerOptions : ∀ address, other.managerOptions address = settings.managerOptions address
  logSetup : other.logSetup = settings.logSetup

section

variable (settings : Settings) {key : Key}

/-- A key without a standard value is read as before. -/
theorem text?_completed (hKey : key ∈ Key.own) (hNone : key.standard? = none) :
    settings.completed.text? key = settings.text? key := by
  rw [text?, get?_completed settings hKey, hNone, Option.or_none, text?]

/-- A text is read as before, or as the standard one where there was no value. -/
theorem text?_completed_cases {text : String}
    (hStandard : key.standard? = some (.scalar (.text text) none)) :
    settings.completed.text? key = settings.text? key ∨
      settings.text? key = none ∧ settings.completed.text? key = some text := by
  rw [text?, get?_completed settings (Key.mem_own_of_standard? hStandard).1, hStandard, text?]
  cases settings.get? key with
  | none => exact .inr ⟨rfl, rfl⟩
  | some value => exact .inl rfl

theorem getD_text?_completed {text : String}
    (hStandard : key.standard? = some (.scalar (.text text) none)) :
    (settings.completed.text? key).getD text = (settings.text? key).getD text := by
  rcases settings.text?_completed_cases hStandard with hSame | ⟨hNone, hSome⟩
  · rw [hSame]
  · rw [hNone, hSome, Option.getD_some, Option.getD_none]

/-- A number is read as before. -/
theorem natural_completed {n : Nat}
    (hStandard : key.standard? = some (.scalar (.int n) none)) :
    settings.completed.natural key n = settings.natural key n := by
  rw [natural, get?_completed settings (Key.mem_own_of_standard? hStandard).1, hStandard, natural]
  cases settings.get? key with
  | none =>
      -- A standard number is read back, for it is not negative.
      have hSign : ¬ (n : Int) < 0 := by omega
      simp only [Option.none_or, Setting.toInt, hSign, if_false, Int.toNat_natCast]
  | some value => rfl

/-- A truth value is read as before. -/
theorem truth_completed {standard : Bool}
    (hStandard : key.standard? = some (.scalar (.bool standard) none)) :
    settings.completed.truth key standard = settings.truth key standard := by
  rw [truth, get?_completed settings (Key.mem_own_of_standard? hStandard).1, hStandard, truth]
  cases settings.get? key <;> rfl

theorem multiplier_completed : settings.completed.multiplier = settings.multiplier := by
  rw [multiplier, get?_completed settings (by decide), multiplier]
  cases settings.get? .retryMultiplier <;> rfl

theorem lockClass_of_text? {settings : Settings} {text : String} {interval : IntervalClass}
    (hText : settings.text? .jobClass = some text)
    (hClass : IntervalClass.ofName? text = some interval) : settings.lockClass = .ok interval := by
  simp only [lockClass, hText, hClass]

theorem lockClass_completed : settings.completed.lockClass = settings.lockClass := by
  have hClass : IntervalClass.ofName? IntervalClass.short.name = some .short := by
    have hLower : IntervalClass.short.name.toLower = "short" := toLower_eq (by decide)
    rw [IntervalClass.ofName?, hLower]
    decide
  rcases settings.text?_completed_cases
    (show Key.jobClass.standard? = some (.scalar (.text IntervalClass.short.name) none) from rfl)
    with hSame | ⟨hNone, hSome⟩
  · rw [lockClass, hSame, lockClass]
  · rw [lockClass_of_text? hSome hClass, lockClass, hNone]

theorem logRotation_of_text? {settings : Settings} {text : String} {rotation : Log.Rotation}
    (hText : settings.text? .logRotation = some text)
    (hRotation : Log.Rotation.ofText? text = some rotation) :
    settings.logRotation = .ok rotation := by
  simp only [logRotation, hText, hRotation]

theorem logRotation_completed : settings.completed.logRotation = settings.logRotation := by
  have hRotation : Log.Rotation.ofText? "daily" = some .daily := by
    have hLower : "daily".toLower = "daily" := toLower_eq (by decide)
    have hName : Log.Rotation.daily.name.toLower = "daily" := toLower_eq (by decide)
    rw [Log.Rotation.ofText?, hLower, Log.Rotation.all, List.find?_cons, hName, beq_self_eq_true]
  rcases settings.text?_completed_cases
    (show Key.logRotation.standard? = some (.scalar (.text "daily") none) from rfl)
    with hSame | ⟨hNone, hSome⟩
  · rw [logRotation, hSame, logRotation]
  · rw [logRotation_of_text? hSome hRotation, logRotation, hNone]

theorem retryPolicy_completed : settings.completed.retryPolicy = settings.retryPolicy := by
  have hJitter : settings.completed.jitter = settings.jitter := by
    rw [jitter, natural_completed settings rfl, natural_completed settings rfl,
      multiplier_completed, jitter]
  rw [retryPolicy, uncheckedRetryPolicy, getD_text?_completed settings rfl, hJitter, retryPolicy,
    uncheckedRetryPolicy]

/-- The policy of a class that was not changed before is read as before. -/
theorem overrideClass_completed {table : PolicyTable} {interval : IntervalClass}
    (hGet : table.get interval = PolicyTable.standard.get interval) :
    settings.completed.overrideClass table interval = settings.overrideClass table interval := by
  have hLease : (Key.lease interval.name).standard?
      = some (.scalar (.int (PolicyTable.standard.get interval).lease.seconds) none) := by
    cases interval <;> rfl
  have hHeartbeat : (Key.heartbeat interval.name).standard?
      = some (.scalar (.int (PolicyTable.standard.get interval).heartbeat.seconds) none) := by
    cases interval <;> rfl
  rw [overrideClass, uncheckedLeasePolicy, hGet, natural_completed settings hLease,
    natural_completed settings hHeartbeat, overrideClass, uncheckedLeasePolicy, hGet]

/-- The policy of one class does not touch that of another. -/
theorem get_of_overrideClass {table changed : PolicyTable} {interval other : IntervalClass}
    (hOther : other ≠ interval) (h : settings.overrideClass table interval = .ok changed) :
    changed.get other = table.get other := by
  rw [overrideClass] at h
  split at h
  · cases h
  · next policy hPolicy =>
    split at h
    · rw [Except.ok.inj h]
    · split at h
      · cases h
      · next set hSet =>
        obtain rfl := Except.ok.inj h
        rw [PolicyTable.withPolicy] at hSet
        split at hSet
        · cases hSet
        · rw [← Except.ok.inj hSet, PolicyTable.get_set_of_ne table policy hOther]

theorem leasePolicies_completed : settings.completed.leasePolicies = settings.leasePolicies := by
  rw [leasePolicies, overrideClass_completed settings rfl, leasePolicies]
  cases hShort : settings.overrideClass .standard .short with
  | error error => rfl
  | ok table =>
      -- The first class has left the policy of the second one alone.
      have hMedium : table.get .medium = PolicyTable.standard.get .medium :=
        settings.get_of_overrideClass (by decide) hShort
      exact settings.overrideClass_completed hMedium

end

/-- **The standard values say nothing new**: written wherever there is no value, they change no
answer. -/
theorem sameAnswers_completed (settings : Settings) : SameAnswers settings settings.completed where
  storageMode := by
    rw [Settings.storageMode, text?_completed settings (by decide) rfl, Settings.storageMode]
  lockName := by rw [Settings.lockName, text?_completed settings (by decide) rfl, Settings.lockName]
  lockClass := settings.lockClass_completed
  jobCommand := by
    have hNone : Key.jobCommand.standard? = none := rfl
    rw [Settings.jobCommand, get?_completed settings (by decide), hNone, Option.or_none,
      Settings.jobCommand]
  channelCapacity := by
    rw [Settings.channelCapacity, natural_completed settings rfl, Settings.channelCapacity]
  shutdownTimeout := by
    rw [Settings.shutdownTimeout, natural_completed settings rfl, Settings.shutdownTimeout]
  managerOptions := by
    intro address
    have hIdentity : settings.completed.identity address = settings.identity address := by
      rw [identity, chosenIdentity?, text?_completed settings (by decide) rfl, identity,
        chosenIdentity?]
    have hDatabase : settings.completed.lockDatabase = settings.lockDatabase :=
      getD_text?_completed settings rfl
    have hTable : settings.completed.lockTable = settings.lockTable :=
      getD_text?_completed settings rfl
    have hFailures : settings.completed.maxFailures = settings.maxFailures := by
      rw [maxFailures, natural_completed settings rfl, maxFailures]
    rw [Settings.managerOptions, leasePolicies_completed, retryPolicy_completed, hFailures,
      hIdentity, hDatabase, hTable, Settings.managerOptions]
  logSetup := by
    have hPath : settings.completed.text? .logPath = settings.text? .logPath :=
      text?_completed settings (by decide) rfl
    have hLevel : (settings.completed.text? .logLevel).getD "info"
        = (settings.text? .logLevel).getD "info" := getD_text?_completed settings rfl
    have hEnvironment : settings.completed.environment = settings.environment := rfl
    rw [Settings.logSetup, logRotation_completed, hPath, hLevel, hEnvironment,
      truth_completed settings rfl, truth_completed settings rfl, Settings.logSetup]

end Settings
end Leasehold
