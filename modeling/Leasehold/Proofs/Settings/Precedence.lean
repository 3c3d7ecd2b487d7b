import Leasehold.Proofs.Settings.Naming
import Leasehold.Proofs.Settings.Standards

/-!
# Where a value comes from

The value of a key of the service comes from the command line, else from the variables, else from
the file, and is else the standard one.  This holds whatever the format of the file is and however
it is loaded.  The variable that counts for a key is not the one that is spelled like the key, but
the one with the mark of variables before the key.

* `Settings.given?`, `Settings.exported?`, `Settings.filed?`: what each layer says under a key.
* `Settings.loadWith_eq`: the settings of a process as three layers of writes.
* `Settings.get?_layered`: the command line comes before everything else.
* `Settings.get?_layered_of_isClear`: then come the variables, and then the file.
* `Settings.load_precedence`: all layers, with the variables that count for a key.
* `Settings.not_setAlike`: a variable that is spelled like a key does not set it.
-/

namespace Leasehold
namespace Settings

open Setting (Path writeAll lastAt? ClearOf)

/-! ## The layers -/

/-- The text of a flag as a value. -/
def textSetting (text : String) : Setting := .scalar (.text text) none

/-- The words of a command as a value. -/
def commandSetting (command : List String) : Setting := .list (command.map textSetting) none

/-- What the command line gives for a key: the words behind the flags, or the value of the flag
that sets the key. -/
def given? (flags : Flags) (key : Key) : Option Setting :=
  if key = .jobCommand then
    if flags.command.isEmpty then none else some (commandSetting flags.command)
  else
    (keyedFlags.find? fun flag => decide (flagKey? flag = some key)).bind fun flag =>
      (flags.get? flag).map textSetting

/-- What the variables write, in their order. -/
def variableWrites (environment : Variables) : List (Path × Setting) :=
  environment.list.filterMap fun (name, text) =>
    (Variables.settingPath? name).map fun path => (path, Variables.settingOfText text)

/-- What the last variable that sets the path of a key stands for. -/
def exported? (environment : Variables) (key : Key) : Option Setting :=
  lastAt? key.names (variableWrites environment)

/-- No variable sets a path above, below or beside a key. -/
def IsClear (environment : Variables) (key : Key) : Prop :=
  ∀ name text path, (name, text) ∈ environment.list → Variables.settingPath? name = some path →
    path = key.path ∨ Path.parts path key.names = true

/-- What a file says under a key. -/
def filed? (entries : List (String × Setting)) (key : Key) : Option Setting :=
  (writeFile Setting.noEntries entries).follow? key.path

/-- What the flags write, in their order. -/
def flagWrites (flags : Flags) (environment : Variables) : List (Path × Setting) :=
  (keyedFlags.filterMap fun flag =>
      match flagKey? flag, flagValue? flags environment flag with
      | some key, some text => some (key.path, textSetting text)
      | _, _ => none)
    ++ if flags.command.isEmpty then [] else [(Key.jobCommand.path, commandSetting flags.command)]

theorem writeTo_eq (environment : Variables) (target : Setting) :
    environment.writeTo target = writeAll (variableWrites environment) target := by
  rw [Variables.writeTo, variableWrites, writeAll, List.foldl_filterMap]
  congr 1
  funext target entry
  obtain ⟨name, text⟩ := entry
  simp only
  cases Variables.settingPath? name <;> rfl

theorem writeFlags_eq (flags : Flags) (environment : Variables) (target : Setting) :
    writeFlags flags environment target = writeAll (flagWrites flags environment) target := by
  have hFlags : keyedFlags.foldl (writeFlag flags environment) target
      = writeAll (keyedFlags.filterMap fun flag =>
          match flagKey? flag, flagValue? flags environment flag with
          | some key, some text => some (key.path, textSetting text)
          | _, _ => none) target := by
    rw [writeAll, List.foldl_filterMap]
    congr 1
    funext target flag
    rw [writeFlag]
    cases flagKey? flag <;> cases flagValue? flags environment flag <;> rfl
  rw [writeFlags, flagWrites, Setting.writeAll_append, ← hFlags]
  cases flags.command.isEmpty <;> rfl

/-! ## The writes of the layers -/

/-- The keys that the command line can set. -/
def givenKeys : List Key := [.jobName, .jobClass, .identity, .storageMode, .databaseUrl, .jobCommand]

theorem givenKeys_apart : ∀ key ∈ givenKeys, ∀ other ∈ Key.own, key.apart other = true := by decide

theorem mem_keyedFlags {flag : Flag} {key : Key} (h : flagKey? flag = some key) :
    flag ∈ keyedFlags ∧ key ∈ givenKeys ∧ key ≠ .jobCommand := by
  cases flag with
  | config => cases h
  | _ =>
      obtain rfl := Option.some.inj h
      decide

theorem flagKey?_inj {flag other : Flag} {key : Key} (h : flagKey? flag = some key)
    (hOther : flagKey? other = some key) : flag = other := by
  have hAll : ∀ first ∈ keyedFlags, ∀ second ∈ keyedFlags, flagKey? first = flagKey? second →
      first = second := by decide
  exact hAll flag (mem_keyedFlags h).1 other (mem_keyedFlags hOther).1 (h.trans hOther.symm)

theorem mem_flagWrites {flags : Flags} {environment : Variables} {path : Path} {value : Setting} :
    (path, value) ∈ flagWrites flags environment ↔
      (∃ flag key text, flagKey? flag = some key ∧ flagValue? flags environment flag = some text ∧
        path = key.path ∧ value = textSetting text) ∨
      flags.command.isEmpty = false ∧ path = Key.jobCommand.path ∧
        value = commandSetting flags.command := by
  rw [flagWrites, List.mem_append, List.mem_filterMap]
  refine or_congr ⟨?_, ?_⟩ ?_
  · rintro ⟨flag, -, hFlag⟩
    split at hFlag
    · next key text hKey hText =>
      obtain ⟨rfl, rfl⟩ := Prod.mk.inj (Option.some.inj hFlag)
      exact ⟨flag, key, text, hKey, hText, rfl, rfl⟩
    · cases hFlag
  · rintro ⟨flag, key, text, hKey, hText, rfl, rfl⟩
    exact ⟨flag, (mem_keyedFlags hKey).1, by simp only [hKey, hText]⟩
  · cases flags.command.isEmpty <;> simp

theorem clearOf_flagWrites (flags : Flags) (environment : Variables) {key : Key}
    (hKey : key ∈ Key.own) : ClearOf key.names (flagWrites flags environment) := by
  rintro ⟨path, value⟩ hWrite
  rcases mem_flagWrites.mp hWrite with ⟨flag, other, text, hFlag, -, rfl, rfl⟩ | ⟨-, rfl, rfl⟩
  · exact clear_of_apart rfl (givenKeys_apart other (mem_keyedFlags hFlag).2.1 key hKey)
  · exact clear_of_apart rfl (givenKeys_apart .jobCommand (by decide) key hKey)

/-- A flag that sets a key of the service has no variable in its place. -/
theorem flagValue?_eq_get? (flags : Flags) (environment : Variables) {flag : Flag} {key : Key}
    (hFlag : flagKey? flag = some key) (hKey : key ∈ Key.own) :
    flagValue? flags environment flag = flags.get? flag := by
  cases flag with
  | databaseUrl =>
      -- The address of the database is the one flag with a variable, and no key of the service.
      obtain rfl := Option.some.inj hFlag
      exact absurd hKey (by decide)
  | _ => rfl

theorem find?_keyedFlags {flag : Flag} {key : Key} (h : flagKey? flag = some key) :
    (keyedFlags.find? fun other => decide (flagKey? other = some key)) = some flag := by
  cases hFind : keyedFlags.find? fun other => decide (flagKey? other = some key) with
  | none => exact absurd (decide_eq_true h) (List.find?_eq_none.mp hFind flag (mem_keyedFlags h).1)
  | some other =>
      have hOther := List.find?_some hFind
      rw [flagKey?_inj (of_decide_eq_true hOther) h]

/-- What is written at a key of the service is what the command line gives for it. -/
theorem mem_flagWrites_iff (flags : Flags) (environment : Variables) {key : Key}
    (hKey : key ∈ Key.own) (value : Setting) :
    (key.path, value) ∈ flagWrites flags environment ↔ given? flags key = some value := by
  by_cases hCommand : key = .jobCommand
  · subst hCommand
    rw [given?, if_pos rfl]
    constructor
    · intro hWrite
      rcases mem_flagWrites.mp hWrite with ⟨flag, other, text, hFlag, -, hPath, -⟩ | ⟨hSome, -, rfl⟩
      · exact absurd (Key.path_inj hPath).symm (mem_keyedFlags hFlag).2.2
      · rw [hSome, if_neg Bool.false_ne_true]
    · intro hGiven
      split at hGiven
      · cases hGiven
      · next hSome =>
        obtain rfl := Option.some.inj hGiven
        exact mem_flagWrites.mpr (.inr ⟨Bool.eq_false_iff.mpr hSome, rfl, rfl⟩)
  · rw [given?, if_neg hCommand]
    constructor
    · intro hWrite
      rcases mem_flagWrites.mp hWrite with
        ⟨flag, other, text, hFlag, hValue, hPath, rfl⟩ | ⟨-, hPath, -⟩
      · obtain rfl : key = other := Key.path_inj hPath
        rw [flagValue?_eq_get? flags environment hFlag hKey] at hValue
        rw [find?_keyedFlags hFlag, Option.bind_some, hValue, Option.map_some]
      · exact absurd (Key.path_inj hPath) hCommand
    · intro hGiven
      obtain ⟨flag, hFind, hSome⟩ := Option.bind_eq_some_iff.mp hGiven
      obtain ⟨text, hText, rfl⟩ := Option.map_eq_some_iff.mp hSome
      have hFlag := List.find?_some hFind
      rw [decide_eq_true_eq] at hFlag
      rw [← flagValue?_eq_get? flags environment hFlag hKey] at hText
      exact mem_flagWrites.mpr (.inl ⟨flag, key, text, hFlag, hText, rfl, rfl⟩)

theorem clearOf_variableWrites {environment : Variables} {key : Key}
    (h : IsClear environment key) : ClearOf key.names (variableWrites environment) := by
  rintro ⟨path, value⟩ hWrite
  obtain ⟨⟨name, text⟩, hVariable, hSets⟩ := List.mem_filterMap.mp hWrite
  obtain ⟨found, hFound, hPair⟩ := Option.map_eq_some_iff.mp hSets
  obtain ⟨rfl, rfl⟩ := Prod.mk.inj hPair
  exact (h name text found hVariable hFound).imp_left fun hPath => ⟨hPath, rfl⟩

/-! ## The layers together -/

variable {loader : Loader} {folder : Folder} {environment : Variables} {arguments : List String}
  {flags : Flags} {entries : List (String × Setting)}

/-- The settings of a process. -/
def layered (environment : Variables) (flags : Flags) (entries : List (String × Setting)) :
    Settings :=
  ⟨writeAll (flagWrites flags environment)
    (writeAll (variableWrites environment) (writeFile Setting.noEntries entries)), environment⟩

theorem loadWith_eq (hFlags : Flags.ofArguments arguments = .ok flags)
    (hFile : loader folder (filePath flags) = some entries) :
    loadWith loader folder environment arguments = .ok (layered environment flags entries) := by
  rw [loadWith, hFlags]
  simp only [ofFlags, hFile, layered, writeFlags_eq, writeTo_eq]

theorem loadWith_eq_unreadable (hFlags : Flags.ofArguments arguments = .ok flags)
    (hFile : loader folder (filePath flags) = none) :
    loadWith loader folder environment arguments = .error (.unreadable (filePath flags)) := by
  rw [loadWith, hFlags]
  simp only [ofFlags, hFile]

/-- The command line comes before everything else. -/
theorem get?_layered {key : Key} (hKey : key ∈ Key.own) :
    (layered environment flags entries).get? key
      = (given? flags key).or ((writeAll (variableWrites environment)
          (writeFile Setting.noEntries entries)).follow? key.path) := by
  -- At most one flag sets a key, so that the order of the flags does not matter.
  rw [← Setting.lastAt?_eq_of_mem_iff (mem_flagWrites_iff flags environment hKey)]
  exact Setting.follow?_writeAll (clearOf_flagWrites flags environment hKey)
    (Key.own_names key hKey) _

/-- Then come the variables, and then the file. -/
theorem get?_layered_of_isClear {key : Key} (hKey : key ∈ Key.own)
    (hClear : IsClear environment key) :
    (layered environment flags entries).get? key
      = ((given? flags key).or (exported? environment key)).or (filed? entries key) := by
  rw [get?_layered hKey, Option.or_assoc, exported?, filed?, Key.path,
    Setting.follow?_writeAll (clearOf_variableWrites hClear) (Key.own_names key hKey)]

/-! ## The variables that count -/

namespace Key

/-- The key without its first name. -/
def unmarked (key : Key) : Key := ⟨key.names.tail⟩

theorem own_plain : ∀ key ∈ own, key.IsPlain := by decide

theorem own_marked : ∀ key ∈ own, key = key.unmarked.marked ∧ key.unmarked.names ≠ [] := by
  decide

theorem unmarked_parts : ∀ key ∈ own, ∀ other ∈ own,
    Path.parts key.unmarked.path other.names = true := by decide

/-- The variable with the mark before a key sets that key. -/
theorem settingPath?_marked {key : Key} (hKey : key ∈ own) :
    Variables.settingPath? key.marked.spelled = some key.path :=
  settingPath?_spelled (own_names key hKey) (own_plain key hKey)

/-- The variable that is spelled like a key sets the key without its first name. -/
theorem settingPath?_own {key : Key} (hKey : key ∈ own) :
    Variables.settingPath? key.spelled = some key.unmarked.path := by
  obtain ⟨hMarked, hNames⟩ := own_marked key hKey
  have hPlain : key.unmarked.IsPlain := fun name hName =>
    own_plain key hKey name (List.mem_of_mem_tail hName)
  have hPath := settingPath?_spelled hNames hPlain
  rwa [← hMarked] at hPath

end Key

/-- Two variables: one with the mark before a key, and one that is spelled like a key. -/
def bothSpellings : Variables :=
  ⟨[(Key.storageMode.marked.spelled, "memory"), (Key.jobName.spelled, "nightly")]⟩

theorem variableWrites_bothSpellings :
    variableWrites bothSpellings
      = [(Key.storageMode.path, Variables.settingOfText "memory"),
          (Key.jobName.unmarked.path, Variables.settingOfText "nightly")] := by
  simp only [variableWrites, bothSpellings, List.filterMap_cons, List.filterMap_nil,
    Key.settingPath?_marked (show Key.storageMode ∈ Key.own by decide),
    Key.settingPath?_own (show Key.jobName ∈ Key.own by decide), Option.map_some]

theorem isClear_bothSpellings {key : Key} (hKey : key ∈ Key.own) : IsClear bothSpellings key := by
  intro name text path hVariable hSets
  have hWrite : (path, Variables.settingOfText text) ∈ variableWrites bothSpellings := by
    refine List.mem_filterMap.mpr ⟨(name, text), hVariable, ?_⟩
    simp only [hSets, Option.map_some]
  rw [variableWrites_bothSpellings] at hWrite
  rcases List.mem_cons.mp hWrite with hFirst | hRest
  · have hApart := Key.own_apart .storageMode (by decide) key hKey
    rw [(Prod.mk.inj hFirst).1]
    exact (Key.apart_iff.mp hApart).imp_left fun hSame => by rw [hSame]
  · rw [(Prod.mk.inj (List.mem_singleton.mp hRest)).1]
    exact .inr (Key.unmarked_parts .jobName (by decide) key hKey)

/-! ## All layers -/

/-- **Precedence**: the settings of a process, however its file is loaded.  If the file cannot be
read there are none.  Otherwise the value of a key of the service is what the command line gives,
and else what is found once the variables are written over the file.  Unless a variable sets a path
above, below or beside the key, this is what the last variable stands for that sets the key, and
otherwise what the file says.  The variable with the mark before the key sets it, and the one that
is spelled like the key touches no key of the service.  Where there is no value the standard one is
read. -/
theorem load_precedence (loader : Loader) (folder : Folder) (environment : Variables)
    (hFlags : Flags.ofArguments arguments = .ok flags) :
    (loader folder (filePath flags) = none →
      loadWith loader folder environment arguments = .error (.unreadable (filePath flags))) ∧
    (∀ entries, loader folder (filePath flags) = some entries →
      ∃ settings, loadWith loader folder environment arguments = .ok settings ∧
        (∀ key ∈ Key.own, settings.get? key = (given? flags key).or
          ((environment.writeTo (writeFile Setting.noEntries entries)).follow? key.path)) ∧
        (∀ key ∈ Key.own, IsClear environment key →
          settings.get? key
            = ((given? flags key).or (exported? environment key)).or (filed? entries key)) ∧
        (∀ key ∈ Key.own, settings.completed.get? key = (settings.get? key).or key.standard?) ∧
        SameAnswers settings settings.completed) ∧
    ∀ key ∈ Key.own, Variables.settingPath? key.marked.spelled = some key.path ∧
      ∃ path, Variables.settingPath? key.spelled = some path ∧
        ∀ other ∈ Key.own, Path.parts path other.names = true := by
  refine ⟨loadWith_eq_unreadable hFlags, fun entries hFile => ?read, fun key hKey => ?names⟩
  case read =>
    refine ⟨layered environment flags entries, loadWith_eq hFlags hFile, fun key hKey => ?_,
      fun key hKey hClear => get?_layered_of_isClear hKey hClear,
      fun key hKey => get?_completed _ hKey, sameAnswers_completed _⟩
    rw [get?_layered hKey, writeTo_eq]
  case names =>
    exact ⟨Key.settingPath?_marked hKey, key.unmarked.path, Key.settingPath?_own hKey,
      Key.unmarked_parts key hKey⟩

/-- Of two variables only the one with the mark before a key counts, and a command counts for its
own key. -/
theorem load_bothSpellings :
    ∃ settings, loadWith .standard ⟨[]⟩ bothSpellings ["true"] = .ok settings ∧
      settings.get? .storageMode = some (Variables.settingOfText "memory") ∧
      settings.get? .jobName = none ∧
      settings.get? .jobCommand = some (commandSetting ["true"]) := by
  have hFlags : Flags.ofArguments ["true"] = .ok ⟨[], ["true"]⟩ := by decide
  obtain ⟨-, hRead, -⟩ := load_precedence .standard ⟨[]⟩ bothSpellings hFlags
  obtain ⟨settings, hLoad, hGiven, hLayers, -⟩ := hRead [] rfl
  refine ⟨settings, hLoad, ?_, ?_, ?_⟩
  · rw [hLayers .storageMode (by decide) (isClear_bothSpellings (by decide)), exported?,
      variableWrites_bothSpellings]
    rfl
  · rw [hLayers .jobName (by decide) (isClear_bothSpellings (by decide)), exported?,
      variableWrites_bothSpellings]
    rfl
  · rw [hGiven .jobCommand (by decide)]
    rfl

/-! ## Variables that are spelled like keys -/

/-- A variable that is spelled like a key sets it, where no flag does and its text is neither a
number nor a truth value. -/
def SetAlike : Prop :=
  ∀ (loader : Loader) (folder : Folder) (environment : Variables) (arguments : List String)
    (flags : Flags) (settings : Settings), Flags.ofArguments arguments = .ok flags →
    loadWith loader folder environment arguments = .ok settings →
    ∀ key ∈ Key.own, given? flags key = none →
    ∀ text, environment.get? key.spelled = some text →
      Variables.settingOfText text = .scalar (.text text) (some Variables.source) →
      settings.text? key = some text

theorem spelled_storageMode : Key.storageMode.spelled = "CLUSTERLOCK.STORAGE.MODE" := by
  refine String.toList_inj.mp ?_
  rw [Key.spelled, String.toUpper, String.toList_map]
  decide

theorem settingOfText_memory :
    Variables.settingOfText "memory" = .scalar (.text "memory") (some Variables.source) := by
  have hLower : "memory".toLower = "memory" := toLower_eq (by decide)
  have hInt : Setting.intOfText? "memory" = none := by decide
  have hReal : Binary64.ofText? "memory" = none := by decide
  simp only [Variables.settingOfText, hLower, hInt, hReal]
  rfl

/-- The variable of the kind of store, spelled like its key, does not set it. -/
theorem not_setAlike : ¬ SetAlike := by
  intro hAlike
  have hFlags : Flags.ofArguments [] = .ok ⟨[], []⟩ := by decide
  have hText := hAlike .standard ⟨[]⟩ ⟨[("CLUSTERLOCK.STORAGE.MODE", "memory")]⟩ [] ⟨[], []⟩ _
    hFlags (loadWith_eq hFlags rfl) .storageMode (by decide) rfl "memory"
    (by rw [spelled_storageMode]; rfl) settingOfText_memory
  have hWrites : variableWrites ⟨[("CLUSTERLOCK.STORAGE.MODE", "memory")]⟩
      = [(Key.storageMode.unmarked.path, Variables.settingOfText "memory")] := by
    have hPath := Key.settingPath?_own (show Key.storageMode ∈ Key.own by decide)
    rw [spelled_storageMode] at hPath
    simp only [variableWrites, List.filterMap_cons, List.filterMap_nil, hPath, Option.map_some]
  rw [text?, get?_layered (by decide), hWrites, settingOfText_memory] at hText
  cases hText

end Settings
end Leasehold
