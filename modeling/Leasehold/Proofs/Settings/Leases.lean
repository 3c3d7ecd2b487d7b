import Leasehold.Proofs.Lock.Offers
import Leasehold.Proofs.Settings.Standards

/-!
# Lease policies from the settings

The settings may give each class a lease, a heartbeat period, both or neither; what they do not
give is the standard one.  The pairs that come out of this are the lease policies, provided that
every number can be read and every pair is valid.  Otherwise the error is that of the first check
that fails, class by class: the lease, the heartbeat period, and then the pair of them.

* `Settings.NumberReading`: a number under a key, as far as it can be read.
* `Settings.configured`: the pair of a class.
* `Settings.LeaseCheck`: the checks in order, with the error of each.
* `Settings.leasePolicies_eq`: the lease policies are the configured pairs, or the first error.
* `Settings.overrideClass_eq_checked`: a pair that is not checked again is valid already.
* `Settings.leases_exact`: the lease policies of all settings, and all tables of offered policies.
-/

namespace Leasehold
namespace Settings

/-! ## Numbers -/

/-- **A number under a key**: there may be none, an integer, or a value that is no integer. -/
inductive NumberReading where
  | absent
  | integer (n : Int)
  | unreadable (mismatch : Setting.Mismatch)
  deriving Repr, DecidableEq

namespace NumberReading

/-- Whether what is there is an integer that is not negative. -/
def IsNatural : NumberReading → Prop
  | absent => True
  | integer n => 0 ≤ n
  | unreadable _ => False

/-- What is wrong with a number. -/
def fault? (key : Key) : NumberReading → Option SettingsError
  | absent => none
  | integer n => if n < 0 then some (.negative key n) else none
  | unreadable mismatch => some (.mismatch key mismatch)

/-- The number that is there, or the standard one. -/
def number (standard : Nat) : NumberReading → Nat
  | integer n => n.toNat
  | _ => standard

theorem fault?_eq_none_iff (key : Key) (reading : NumberReading) :
    reading.fault? key = none ↔ reading.IsNatural := by
  cases reading with
  | absent => exact iff_of_true rfl trivial
  | integer n =>
      simp only [fault?, IsNatural]
      split
      · exact iff_of_false nofun (by omega)
      · exact iff_of_true rfl (by omega)
  | unreadable mismatch => exact iff_of_false nofun id

end NumberReading

/-- How the number under a key reads. -/
def reading (settings : Settings) (key : Key) : NumberReading :=
  match settings.get? key with
  | none => .absent
  | some value =>
    match value.toInt with
    | .ok n => .integer n
    | .error mismatch => .unreadable mismatch

/-- A number is what it reads as, unless something is wrong with it. -/
theorem natural_eq (settings : Settings) (key : Key) (standard : Nat) :
    settings.natural key standard
      = match (settings.reading key).fault? key with
        | some fault => .error fault
        | none => .ok ((settings.reading key).number standard) := by
  rw [natural, reading]
  cases settings.get? key with
  | none => rfl
  | some value =>
      simp only
      cases value.toInt with
      | error mismatch => rfl
      | ok n => by_cases hSign : n < 0 <;> simp [NumberReading.fault?, NumberReading.number, hSign]

/-! ## Pairs -/

/-- The lease and the heartbeat period of a class, each the one that is given or the standard
one. -/
def configured (settings : Settings) (interval : IntervalClass) : LeasePolicy :=
  { lease :=
      .ofSeconds ((settings.reading (.lease interval.name)).number
        (PolicyTable.standard.get interval).lease.seconds)
    heartbeat :=
      .ofSeconds ((settings.reading (.heartbeat interval.name)).number
        (PolicyTable.standard.get interval).heartbeat.seconds) }

/-- A check of what the settings give a class. -/
inductive LeaseCheck where
  | lease (interval : IntervalClass)
  | heartbeat (interval : IntervalClass)
  | pair (interval : IntervalClass)
  deriving Repr, DecidableEq

namespace LeaseCheck

/-- The checks of a class in order. -/
def ofClass (interval : IntervalClass) : List LeaseCheck :=
  [lease interval, heartbeat interval, pair interval]

/-- All checks in order. -/
def all : List LeaseCheck := IntervalClass.all.flatMap ofClass

/-- The error of a check that fails. -/
def error? (settings : Settings) : LeaseCheck → Option ServiceError
  | lease interval =>
    ((settings.reading (.lease interval.name)).fault? (.lease interval.name)).map
      SettingsError.toService
  | heartbeat interval =>
    ((settings.reading (.heartbeat interval.name)).fault? (.heartbeat interval.name)).map
      SettingsError.toService
  | pair interval =>
    (settings.configured interval).fault?.map fun fault =>
      (LockError.invalidPolicy interval fault).toService

/-- A table after some checks: the error of the first that fails, or else the table. -/
def verdict (settings : Settings) (checks : List LeaseCheck) (table : PolicyTable) :
    Except ServiceError PolicyTable :=
  match checks.findSome? (error? settings) with
  | some error => .error error
  | none => .ok table

section

variable (settings : Settings)

theorem error?_lease (interval : IntervalClass) :
    (lease interval).error? settings
      = ((settings.reading (.lease interval.name)).fault? (.lease interval.name)).map
          SettingsError.toService := rfl

theorem error?_heartbeat (interval : IntervalClass) :
    (heartbeat interval).error? settings
      = ((settings.reading (.heartbeat interval.name)).fault? (.heartbeat interval.name)).map
          SettingsError.toService := rfl

theorem error?_pair (interval : IntervalClass) :
    (pair interval).error? settings
      = (settings.configured interval).fault?.map fun fault =>
          (LockError.invalidPolicy interval fault).toService := rfl

variable {settings} {checks : List LeaseCheck} {table : PolicyTable}

theorem verdict_eq_ok_iff {changed : PolicyTable} :
    verdict settings checks table = .ok changed ↔
      (∀ check ∈ checks, check.error? settings = none) ∧ table = changed := by
  rw [verdict, ← List.findSome?_eq_none_iff]
  cases checks.findSome? (error? settings) with
  | none => simp
  | some error => simp

/-- The error is that of the first check that fails. -/
theorem verdict_eq_error_iff {error : ServiceError} :
    verdict settings checks table = .error error ↔
      ∃ before check after, checks = before ++ check :: after ∧
        (∀ earlier ∈ before, earlier.error? settings = none) ∧
          check.error? settings = some error := by
  have hFirst : verdict settings checks table = .error error ↔
      checks.findSome? (error? settings) = some error := by
    rw [verdict]
    cases checks.findSome? (error? settings) <;> simp
  rw [hFirst, List.findSome?_eq_some_iff]
  constructor
  · rintro ⟨before, check, after, hChecks, hError, hBefore⟩
    exact ⟨before, check, after, hChecks, hBefore, hError⟩
  · rintro ⟨before, check, after, hChecks, hBefore, hError⟩
    exact ⟨before, check, after, hChecks, hError, hBefore⟩

/-- The checks of a class pass if its numbers are natural and its pair is valid. -/
theorem ofClass_passed_iff {interval : IntervalClass} :
    (∀ check ∈ ofClass interval, check.error? settings = none) ↔
      (settings.reading (.lease interval.name)).IsNatural ∧
        (settings.reading (.heartbeat interval.name)).IsNatural ∧
          (settings.configured interval).IsValid := by
  simp only [ofClass, List.forall_mem_cons, List.not_mem_nil, false_implies, implies_true, and_true]
  rw [error?_lease, error?_heartbeat, error?_pair, Option.map_eq_none_iff, Option.map_eq_none_iff,
    Option.map_eq_none_iff, NumberReading.fault?_eq_none_iff, NumberReading.fault?_eq_none_iff,
    LeasePolicy.fault?_eq_none_iff]

theorem all_passed_iff :
    (∀ check ∈ all, check.error? settings = none) ↔
      ∀ interval, ∀ check ∈ ofClass interval, check.error? settings = none := by
  have hClasses : ∀ interval, interval ∈ IntervalClass.all := fun interval => by
    cases interval <;> decide
  simp only [all, List.mem_flatMap]
  constructor
  · exact fun h interval check hCheck => h check ⟨interval, hClasses interval, hCheck⟩
  · rintro h check ⟨interval, -, hCheck⟩
    exact h interval check hCheck

end

end LeaseCheck

section

variable (settings : Settings) {table : PolicyTable} {interval : IntervalClass}

/-- The table with the lease policy of a class, checked whether it is changed or not. -/
def checkedOverride (table : PolicyTable) (interval : IntervalClass) :
    Except ServiceError PolicyTable :=
  match settings.uncheckedLeasePolicy interval (table.get interval) with
  | .error e => .error e.toService
  | .ok policy =>
    match table.withPolicy interval policy with
    | .error e => .error e.toService
    | .ok table => .ok table

/-- **A pair that is not checked again is valid already**, if the table holds a valid one. -/
theorem overrideClass_eq_checked (hValid : (table.get interval).IsValid) :
    settings.overrideClass table interval = settings.checkedOverride table interval := by
  rw [overrideClass, checkedOverride]
  cases settings.uncheckedLeasePolicy interval (table.get interval) with
  | error error => rfl
  | ok policy =>
      simp only
      split
      · next hSame =>
        rw [hSame, PolicyTable.withPolicy_of_isValid table hValid, PolicyTable.set_get_self]
      · rfl

section

variable {settings}

theorem checkedOverride_of_error {error : SettingsError}
    (h : settings.uncheckedLeasePolicy interval (table.get interval) = .error error) :
    settings.checkedOverride table interval = .error error.toService := by
  simp only [checkedOverride, h]

theorem checkedOverride_of_fault? {policy : LeasePolicy} {fault : PolicyFault}
    (h : settings.uncheckedLeasePolicy interval (table.get interval) = .ok policy)
    (hFault : policy.fault? = some fault) :
    settings.checkedOverride table interval
      = .error (LockError.invalidPolicy interval fault).toService := by
  simp only [checkedOverride, h, PolicyTable.withPolicy_of_fault? table hFault]

theorem checkedOverride_of_isValid {policy : LeasePolicy}
    (h : settings.uncheckedLeasePolicy interval (table.get interval) = .ok policy)
    (hValid : policy.IsValid) :
    settings.checkedOverride table interval = .ok (table.set interval policy) := by
  simp only [checkedOverride, h, PolicyTable.withPolicy_of_isValid table hValid]

end

/-- The pair of a class that still has its standard one. -/
theorem uncheckedLeasePolicy_eq (interval : IntervalClass) :
    settings.uncheckedLeasePolicy interval (PolicyTable.standard.get interval)
      = match (settings.reading (.lease interval.name)).fault? (.lease interval.name) with
        | some fault => .error fault
        | none =>
          match (settings.reading (.heartbeat interval.name)).fault? (.heartbeat interval.name) with
          | some fault => .error fault
          | none => .ok (settings.configured interval) := by
  rw [uncheckedLeasePolicy, natural_eq]
  cases (settings.reading (.lease interval.name)).fault? (.lease interval.name) with
  | some fault => rfl
  | none =>
      simp only
      rw [natural_eq]
      cases (settings.reading (.heartbeat interval.name)).fault? (.heartbeat interval.name) <;> rfl

/-- One class: its three checks, and its pair in the table. -/
theorem overrideClass_eq (hGet : table.get interval = PolicyTable.standard.get interval) :
    settings.overrideClass table interval
      = LeaseCheck.verdict settings (LeaseCheck.ofClass interval)
          (table.set interval (settings.configured interval)) := by
  have hUnchecked := settings.uncheckedLeasePolicy_eq interval
  rw [overrideClass_eq_checked settings (hGet ▸ PolicyTable.isValid_standard interval)]
  rw [← hGet] at hUnchecked
  symm
  cases hLease : (settings.reading (.lease interval.name)).fault? (.lease interval.name) with
  | some fault =>
      rw [hLease] at hUnchecked
      rw [checkedOverride_of_error hUnchecked]
      refine LeaseCheck.verdict_eq_error_iff.mpr ⟨[], _, _, rfl, nofun, ?_⟩
      rw [LeaseCheck.error?_lease, hLease]
      rfl
  | none =>
      cases hHeartbeat :
          (settings.reading (.heartbeat interval.name)).fault? (.heartbeat interval.name) with
      | some fault =>
          rw [hLease, hHeartbeat] at hUnchecked
          rw [checkedOverride_of_error hUnchecked]
          refine LeaseCheck.verdict_eq_error_iff.mpr ⟨[.lease interval], _, _, rfl, ?_, ?_⟩
          · rw [List.forall_mem_singleton, LeaseCheck.error?_lease, hLease]
            rfl
          · rw [LeaseCheck.error?_heartbeat, hHeartbeat]
            rfl
      | none =>
          rw [hLease, hHeartbeat] at hUnchecked
          cases hPair : (settings.configured interval).fault? with
          | some fault =>
              rw [checkedOverride_of_fault? hUnchecked hPair]
              refine LeaseCheck.verdict_eq_error_iff.mpr
                ⟨[.lease interval, .heartbeat interval], _, _, rfl, ?_, ?_⟩
              · rw [List.forall_mem_cons, List.forall_mem_singleton, LeaseCheck.error?_lease,
                  hLease, LeaseCheck.error?_heartbeat, hHeartbeat]
                exact ⟨rfl, rfl⟩
              · rw [LeaseCheck.error?_pair, hPair]
                rfl
          | none =>
              have hValid := (settings.configured interval).fault?_eq_none_iff.mp hPair
              rw [checkedOverride_of_isValid hUnchecked hValid]
              refine LeaseCheck.verdict_eq_ok_iff.mpr ⟨?_, rfl⟩
              refine LeaseCheck.ofClass_passed_iff.mpr ?_
              exact ⟨(NumberReading.fault?_eq_none_iff _ _).mp hLease,
                (NumberReading.fault?_eq_none_iff _ _).mp hHeartbeat, hValid⟩

/-- **The lease policies are the configured pairs**, unless a check fails. -/
theorem leasePolicies_eq :
    settings.leasePolicies
      = LeaseCheck.verdict settings LeaseCheck.all
          ⟨settings.configured .short, settings.configured .medium⟩ := by
  have hMedium : (PolicyTable.standard.set .short (settings.configured .short)).get .medium
      = PolicyTable.standard.get .medium := PolicyTable.get_set_of_ne _ _ (by decide)
  have hAll : LeaseCheck.all = LeaseCheck.ofClass .short ++ LeaseCheck.ofClass .medium := rfl
  rw [leasePolicies, overrideClass_eq settings rfl, LeaseCheck.verdict, LeaseCheck.verdict, hAll,
    List.findSome?_append]
  generalize (LeaseCheck.ofClass .short).findSome? (LeaseCheck.error? settings) = short?
  cases short? with
  | some error => rfl
  | none =>
      simp only [Option.none_or]
      rw [overrideClass_eq settings hMedium, LeaseCheck.verdict]
      rfl

end

/-! ## The lease policies of all settings -/

/-- **Settings whose lease policies are exact.**  There are some exactly if every number that is
given is natural and every pair is valid, and they are these pairs.  Otherwise the error is that of
the first check that fails. -/
structure LeasesExact (settings : Settings) : Prop where
  accepted : ∀ table, settings.leasePolicies = .ok table ↔
    (∀ interval : IntervalClass,
      (settings.reading (.lease interval.name)).IsNatural ∧
        (settings.reading (.heartbeat interval.name)).IsNatural ∧
          0 < (settings.configured interval).heartbeat.nanos ∧
            (settings.configured interval).heartbeat < (settings.configured interval).lease) ∧
      ∀ interval, table.get interval = settings.configured interval
  refused : ∀ error, settings.leasePolicies = .error error ↔
    ∃ before check after, LeaseCheck.all = before ++ check :: after ∧
      (∀ earlier ∈ before, earlier.error? settings = none) ∧
        check.error? settings = some error

theorem leasesExact (settings : Settings) : LeasesExact settings where
  accepted := by
    intro table
    rw [leasePolicies_eq, LeaseCheck.verdict_eq_ok_iff, LeaseCheck.all_passed_iff]
    refine and_congr (forall_congr' fun interval => LeaseCheck.ofClass_passed_iff) ?_
    constructor
    · rintro rfl interval
      cases interval <;> rfl
    · intro h
      refine PolicyTable.ext_get fun interval => ?_
      rw [h interval]
      cases interval <;> rfl
  refused := by
    intro error
    rw [leasePolicies_eq]
    exact LeaseCheck.verdict_eq_error_iff

/-- **Lease policies are exact.**  Those of the settings are the configured pairs or the first
error.  Every table that comes from the standard one by offers holds valid pairs only, each the
last one taken for its class, and a pair that the settings leave as it is there would pass the
check that it is spared. -/
theorem lease_policies_exact (settings : Settings) (offers : List PolicyTable.Offer) :
    LeasesExact settings ∧
      (PolicyTable.standard.offerAll offers).IsValid ∧
      (∀ interval, (PolicyTable.standard.offerAll offers).get interval
        = PolicyTable.standard.lastTaken offers interval) ∧
      ∀ interval, settings.overrideClass (PolicyTable.standard.offerAll offers) interval
        = settings.checkedOverride (PolicyTable.standard.offerAll offers) interval := by
  have hValid := PolicyTable.isValid_offerAll PolicyTable.isValid_standard offers
  exact ⟨settings.leasesExact, hValid, PolicyTable.get_offerAll _ offers,
    fun interval => settings.overrideClass_eq_checked (hValid interval)⟩

/-- Settings that give the short class a heartbeat period as long as its standard lease. -/
def slowHeartbeat : Settings where
  root :=
    .table [("clusterlock", .table [("interval", .table [("short", .table
      [("heartbeat_secs", .scalar (.int 600) none)])])])]
  environment := ⟨[]⟩

example :
    slowHeartbeat.leasePolicies
      = .error (LockError.invalidPolicy .short .periodNotShorter).toService := rfl

end Settings
end Leasehold
