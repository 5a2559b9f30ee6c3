import CachingInLLMs.Benchmarks.Workload
import CachingInLLMs.Library.Dict
import CachingInLLMs.Library.Replace

/-!
# The frozen dataset

The workloads are not stored: what is committed is a manifest, with the config of each seed and
the SHA-256 of its file. `freeze_workloads.py` generates the files anew wherever something is
measured, and refuses to go on if their digests are not those of the manifest. Generation rests on
the `random` of the machine's Python and on its floats, so two machines need not agree.

## The model

A `Machine` is what generation depends on beside the code. The files are their texts by their paths;
`main` is the command on them. `verify_dataset.sh` copies the manifest into another directory and
runs the command there, so a manifest is frozen in one place and checked in another: the events
of a run are commands, on any machine and in any directory, and copies. A directory has one spelling.

JSON and SHA-256 are those of the standard library. A document that is not a manifest equals none.

## What is proved

* `exec_main_update`, `exec_main_check`: what the command writes and returns, whatever the files are.
* `Frozen.run`, `Frozen.copy`: a frozen manifest stays until it is written again, and is copied as it is.
* `verified_replays_frozen`: the check passes exactly if the machine generates the requests that
  were frozen, and the driver replays what the machine generates.
-/

namespace CachingInLLMs.Benchmarks.FrozenDataset

open CachingInLLMs.Library

/-! ### Profiles -/

/-- `PROFILES`. -/
inductive Profile where
  /-- The shared prefixes. -/
  | zipfian
  /-- No prefix twice. -/
  | novel
  deriving DecidableEq

/-- `SEEDS` and `NOVEL_SEEDS`. -/
def Profile.seeds : Profile → List ℕ
  | zipfian => List.range' 1 20
  | novel => List.range' 1 6

/-- `frozen_config`. -/
def frozenConfig (seed : ℕ) : WorkloadConfig where
  numRequests := 500
  prefixPoolSize := 128
  zipfS := 9 / 10
  prefixTokens := 2048
  suffixTokens := 32
  poolSeed := 42
  seed := seed

/-- `novel_frozen_config`. -/
def novelFrozenConfig (seed : ℕ) : NovelWorkloadConfig where
  numRequests := 500
  promptTokens := 2048
  suffixTokens := 32
  seed := seed

deriving instance DecidableEq for WorkloadConfig, NovelWorkloadConfig

/-- `dataclasses.asdict` of either config. -/
inductive Config where
  /-- Of the Zipfian profile. -/
  | zipfian (cfg : WorkloadConfig)
  /-- Of the novel profile. -/
  | novel (cfg : NovelWorkloadConfig)
  deriving DecidableEq

/-- The config of a seed. -/
def Profile.config : Profile → ℕ → Config
  | zipfian, seed => .zipfian (frozenConfig seed)
  | novel, seed => .novel (novelFrozenConfig seed)

/-- A line of a workload file. -/
inductive Line where
  /-- `{"config": ...}`. -/
  | config (cfg : Config)
  /-- A request. -/
  | request (req : Request)

/-- What the manifest says of a seed. -/
structure SeedEntry where
  /-- `file`. -/
  file : Text
  /-- `sha256`. -/
  sha256 : Text
  /-- `config`. -/
  config : Config
  deriving DecidableEq

/-- What generation depends on beside the code: `random`, and powers of floats. -/
structure Machine where
  /-- `random`. -/
  rng : PyRandom
  /-- `k**s`, which may raise `OverflowError`. -/
  pow : ℕ → ℚ → Except PyError ℚ
  /-- The powers that the pool is weighted by are positive. -/
  pow_pos : ∀ k : ℕ, 0 < k → k ≤ (128 : ℤ) → ∃ q, 0 < q ∧ pow k (9 / 10) = .ok q

/-- What the command and the driver use of the standard library. -/
structure Stdlib where
  /-- `json.dumps` of a line. -/
  dumps : Line → Text
  /-- `json.loads` of a line. -/
  loads : Text → Except PyError Line
  /-- What `json.dump({"seeds": entries}, f, indent=2, sort_keys=True)` writes. -/
  dumpManifest : Dict Text SeedEntry → Text
  /-- `json.load(f)["seeds"]`; none if that is anything but a dictionary of entries. -/
  loadManifest : Text → Except PyError (Option (Dict Text SeedEntry))
  /-- `hashlib.sha256(...).hexdigest()`. -/
  sha256 : Text → Text

/-- The files, by their paths. -/
abbrev RunFiles := Files Text Char

/-! ### Files -/

/-- Write a file. -/
def writeFile (path text : Text) : Py RunFiles Unit := fun files => (.ok (), Function.update files path (some text))

/-- Read a file. -/
def readFile (path : Text) : Py RunFiles Text := fun files =>
  match files path with
  | some text => (.ok text, files)
  | none => (.error (.other "FileNotFoundError"), files)

/-- The name of a workload file. -/
def fileName (seed : ℕ) : Text := "seed-".toList ++ natText seed ++ ".jsonl".toList

/-- `workload_path`. -/
def workloadPath (outDir : Text) (seed : ℕ) : Text := outDir ++ '/' :: fileName seed

/-- The manifest of a directory. -/
def manifestPath (outDir : Text) : Text := outDir ++ '/' :: "manifest.json".toList

/-- `d == e`, of dictionaries. -/
def dictEquals {κ α : Type} [DecidableEq κ] [DecidableEq α] (d e : Dict κ α) : Bool :=
  d.items.length = e.items.length && d.items.all fun p => e.get? p.1 = some p.2

/-! ### The command -/

section Command

variable (lib : Stdlib) (m : Machine) (profile : Profile) (outDir : Text)

/-- `generate` or `generate_novel`, of a frozen config. -/
def Machine.requests (m : Machine) (profile : Profile) (seed : ℕ) : Except PyError (List Request) :=
  match profile with
  | .zipfian => generate m.rng m.pow (frozenConfig seed)
  | .novel => generateNovel m.rng (novelFrozenConfig seed)

/-- The text of a workload file. -/
def workloadText (cfg : Config) (requests : List Request) : Text :=
  unlines (lib.dumps (.config cfg) :: requests.map fun req => lib.dumps (.request req))

/-- `dump_jsonl` and `dump_novel_jsonl`: the config is written before anything is generated. -/
def dumpJsonl (seed : ℕ) : Py RunFiles Unit := do
  writeFile (workloadPath outDir seed) (workloadText lib (profile.config seed) [])
  let requests ← Py.ofExcept (m.requests profile seed)
  writeFile (workloadPath outDir seed) (workloadText lib (profile.config seed) requests)

/-- The assertion of `build_novel`; `build_zipfian` has none. -/
def checkReuse (seed : ℕ) : Py RunFiles Unit :=
  match profile with
  | .zipfian => pure ()
  | .novel => do
    let requests ← Py.ofExcept (m.requests .novel seed)
    if reuseFactor (requests.map (·.prefixId)) ≠ 1 then Py.ofExcept (.error (.other "SystemExit")) else pure ()

/-- One turn of the loop of `build_zipfian` and `build_novel`. -/
def buildSeed (entries : Dict Text SeedEntry) (seed : ℕ) : Py RunFiles (Dict Text SeedEntry) := do
  dumpJsonl lib m profile outDir seed
  checkReuse m profile seed
  let text ← readFile (workloadPath outDir seed)
  return entries.set (natText seed) ⟨fileName seed, lib.sha256 text, profile.config seed⟩

/-- `build_zipfian` and `build_novel`. -/
def build : Py RunFiles (Dict Text SeedEntry) := profile.seeds.foldlM (buildSeed lib m profile outDir) ∅

/-- `main`: the code that it returns. -/
def main (updateManifest : Bool) : Py RunFiles ℕ := do
  let entries ← build lib m profile outDir
  if updateManifest then
    writeFile (manifestPath outDir) (lib.dumpManifest entries ++ ['\n'])
    return 0
  else if ((← get) (manifestPath outDir)).isNone then return 1
  else
    let expected ← Py.ofExcept (lib.loadManifest (← readFile (manifestPath outDir)))
    match expected with
    | none => return 1
    | some expected => if !dictEquals expected entries then return 1 else return 0

/-- `load_workload`: the lines but the config. -/
def loadWorkload (files : RunFiles) (path : Text) : Except PyError (List Request) :=
  match files path with
  | none => .error (.other "FileNotFoundError")
  | some text => do
    let lines ← (fileLines text).mapM lib.loads
    return lines.filterMap fun | .config _ => none | .request req => some req

end Command

/-! ### Events -/

/-- What happens to the files. -/
inductive Event where
  /-- The command runs, on some machine and in some directory. -/
  | command (m : Machine) (profile : Profile) (outDir : Text) (updateManifest : Bool)
  /-- `cp "$MANIFEST_SRC" "$OUT/manifest.json"`, of a manifest that is there. -/
  | copy (src outDir : Text)

/-- What an event leaves. -/
def Event.apply (lib : Stdlib) (files : RunFiles) : Event → RunFiles
  | .command m profile outDir updateManifest => ((main lib m profile outDir updateManifest).exec files).2
  | .copy src outDir =>
    match files (manifestPath src) with
    | some text => Function.update files (manifestPath outDir) (some text)
    | none => files

/-- The event writes the manifest of a directory. -/
def Event.Writes (dir : Text) : Event → Prop
  | .command _ _ outDir updateManifest => outDir = dir ∧ updateManifest = true
  | .copy _ outDir => outDir = dir

/-- A step of a run. -/
def Step (lib : Stdlib) (files : RunFiles) (e : Event) (files' : RunFiles) : Prop := files' = e.apply lib files

/-! ### Paths -/

section Paths

theorem natText_injective : Function.Injective natText := by
  intro n n' h
  have hpadded (n : ℕ) : padded 0 n = natText n := by simp [padded]
  exact padded_injective 0 (by rw [hpadded, hpadded, h])

theorem workloadPath_injective (outDir : Text) : Function.Injective (workloadPath outDir) := by
  intro seed seed' h
  have hname : fileName seed = fileName seed' := (List.cons.inj (List.append_cancel_left h)).2
  rw [fileName, fileName, List.append_assoc, List.append_assoc] at hname
  exact natText_injective (List.append_cancel_right (List.append_cancel_left hname))

theorem manifestPath_injective : Function.Injective manifestPath := fun _ _ h => List.append_cancel_right h

/-- A workload is never taken for a manifest. -/
theorem workloadPath_ne_manifestPath (outDir outDir' : Text) (seed : ℕ) :
    workloadPath outDir seed ≠ manifestPath outDir' := by
  intro h
  have hlast := congrArg List.getLast? h
  simp [workloadPath, fileName, manifestPath, List.getLast?_cons, List.getLast?_append] at hlast

end Paths

/-! ### What the command does -/

theorem exec_readFile {files : RunFiles} {path text : Text} (h : files path = some text) :
    (readFile path).exec files = (.ok text, files) := by
  rw [Py.exec, readFile, h]

section Build

variable (lib : Stdlib) (m : Machine) (profile : Profile) (outDir : Text)

/-- Frozen configs are generated on every machine, the novel ones without reuse. -/
theorem requests_ok (seed : ℕ) : ∃ requests, m.requests profile seed = .ok requests ∧
    (profile = .novel → reuseFactor (requests.map (·.prefixId)) = 1) := by
  cases profile with
  | zipfian =>
    have hsize : 0 < (frozenConfig seed).prefixPoolSize := by
      rw [frozenConfig]
      norm_num
    obtain ⟨weights, hweights⟩ := zipfWeights_ok hsize m.pow_pos
    obtain ⟨-, requests, -, hrequests, -⟩ := generate_ok m.rng hweights
    exact ⟨requests, hrequests, fun h => by cases h⟩
  | novel =>
    obtain ⟨requests, hrequests, hall⟩ := generateNovel_ok m.rng (novelFrozenConfig seed)
    refine ⟨requests, hrequests, fun _ => ?_⟩
    rw [map_prefixId_of_forall₂ hall]
    refine reuseFactor_of_nodup List.nodup_range fun hnil => ?_
    rw [List.range_eq_nil] at hnil
    cases hnil

/-- The requests that the machine generates. -/
def Machine.frozen (seed : ℕ) : List Request :=
  match m.requests profile seed with
  | .ok requests => requests
  | .error _ => []

theorem requests_eq (seed : ℕ) : m.requests profile seed = .ok (m.frozen profile seed) := by
  obtain ⟨requests, hrequests, -⟩ := requests_ok m profile seed
  rw [Machine.frozen, hrequests]

theorem exec_checkReuse (seed : ℕ) (files : RunFiles) : (checkReuse m profile seed).exec files = (.ok (), files) := by
  cases profile with
  | zipfian => rfl
  | novel =>
    obtain ⟨requests, hrequests, hreuse⟩ := requests_ok m .novel seed
    rw [checkReuse, hrequests, Py.exec_bind_of_ok (Py.exec_ofExcept _ _), if_neg (not_not.mpr (hreuse rfl))]
    rfl

/-- The text that the machine generates. -/
def frozenText (seed : ℕ) : Text := workloadText lib (profile.config seed) (m.frozen profile seed)

/-- What the manifest says of it. -/
def frozenEntry (seed : ℕ) : SeedEntry :=
  ⟨fileName seed, lib.sha256 (frozenText lib m profile seed), profile.config seed⟩

/-- The entries of a manifest. -/
def frozenEntries : Dict Text SeedEntry :=
  Dict.ofList (profile.seeds.map fun seed => (natText seed, frozenEntry lib m profile seed))

theorem exec_dumpJsonl (seed : ℕ) (files : RunFiles) : (dumpJsonl lib m profile outDir seed).exec files =
    (.ok (), Function.update files (workloadPath outDir seed) (some (frozenText lib m profile seed))) := by
  have hwrite (path text : Text) (files : RunFiles) : (writeFile path text).exec files =
      (.ok (), Function.update files path (some text)) := rfl
  rw [dumpJsonl, Py.exec_bind_of_ok (hwrite _ _ _), requests_eq, Py.exec_bind_of_ok (Py.exec_ofExcept _ _), hwrite,
    Function.update_idem, frozenText]

theorem exec_buildSeed (entries : Dict Text SeedEntry) (seed : ℕ) (files : RunFiles) :
    (buildSeed lib m profile outDir entries seed).exec files =
      (.ok (entries.set (natText seed) (frozenEntry lib m profile seed)),
        Function.update files (workloadPath outDir seed) (some (frozenText lib m profile seed))) := by
  have hread := exec_readFile (Function.update_self (workloadPath outDir seed) (some (frozenText lib m profile seed)) files)
  rw [buildSeed, Py.exec_bind_of_ok (exec_dumpJsonl lib m profile outDir seed files),
    Py.exec_bind_of_ok (exec_checkReuse m profile seed _), Py.exec_bind_of_ok hread]
  rfl

/-- The files after the workloads of some seeds are written. -/
def written (files : RunFiles) (seeds : List ℕ) : RunFiles :=
  seeds.foldl (fun files seed =>
    Function.update files (workloadPath outDir seed) (some (frozenText lib m profile seed))) files

theorem written_of_ne {path : Text} (h : ∀ seed, path ≠ workloadPath outDir seed) (files : RunFiles)
    (seeds : List ℕ) : written lib m profile outDir files seeds path = files path := by
  induction seeds generalizing files with
  | nil => rfl
  | cons seed seeds ih =>
    rw [written, List.foldl_cons]
    exact (ih _).trans (Function.update_of_ne (h seed) ..)

theorem written_of_mem {seed : ℕ} {seeds : List ℕ} (h : seed ∈ seeds) (files : RunFiles) :
    written lib m profile outDir files seeds (workloadPath outDir seed) = some (frozenText lib m profile seed) := by
  induction seeds generalizing files with
  | nil => exact absurd h List.not_mem_nil
  | cons first seeds ih =>
    rw [written, List.foldl_cons]
    by_cases hseed : seed ∈ seeds
    · exact ih hseed _
    · obtain rfl : seed = first := (List.mem_cons.mp h).resolve_right hseed
      -- the later seeds have other paths
      have hrest : ∀ (later : List ℕ) (files : RunFiles), seed ∉ later →
          written lib m profile outDir files later (workloadPath outDir seed) = files (workloadPath outDir seed) := by
        intro later
        induction later with
        | nil => exact fun _ _ => rfl
        | cons other later ih =>
          intro files hnot
          rw [List.mem_cons, not_or] at hnot
          rw [written, List.foldl_cons]
          refine (ih _ hnot.2).trans (Function.update_of_ne ?_ ..)
          exact fun heq => hnot.1 (workloadPath_injective outDir heq)
      exact (hrest seeds _ hseed).trans (Function.update_self ..)

/-- The loop of `build_zipfian` and `build_novel`. -/
theorem exec_build (files : RunFiles) : (build lib m profile outDir).exec files =
    (.ok (frozenEntries lib m profile), written lib m profile outDir files profile.seeds) := by
  have hloop : ∀ (seeds : List ℕ) (entries : Dict Text SeedEntry) (files : RunFiles),
      (seeds.foldlM (buildSeed lib m profile outDir) entries : Py RunFiles _).exec files =
        (.ok (entries.update (seeds.map fun seed => (natText seed, frozenEntry lib m profile seed))),
          written lib m profile outDir files seeds) := by
    intro seeds
    induction seeds with
    | nil => exact fun _ _ => rfl
    | cons seed seeds ih =>
      intro entries files
      rw [List.foldlM_cons, Py.exec_bind_of_ok (exec_buildSeed lib m profile outDir entries seed files), ih]
      rfl
  exact hloop profile.seeds ∅ files

/-- The text of a manifest. -/
def manifestText : Text := lib.dumpManifest (frozenEntries lib m profile) ++ ['\n']

/-- With `--update-manifest`, the command writes the manifest. -/
theorem exec_main_update (files : RunFiles) : (main lib m profile outDir true).exec files =
    (.ok 0, Function.update (written lib m profile outDir files profile.seeds) (manifestPath outDir)
      (some (manifestText lib m profile))) := by
  rw [main, Py.exec_bind_of_ok (exec_build lib m profile outDir files)]
  rfl

theorem written_manifestPath (dir : Text) (files : RunFiles) (seeds : List ℕ) :
    written lib m profile outDir files seeds (manifestPath dir) = files (manifestPath dir) :=
  written_of_ne lib m profile outDir (fun seed => (workloadPath_ne_manifestPath outDir dir seed).symm) files seeds

/-- The code that `main` returns for a manifest, if there is one. -/
def checkCode (manifest : Option Text) : Except PyError ℕ :=
  match manifest with
  | none => .ok 1
  | some text => do
    let expected ← lib.loadManifest text
    match expected with
    | none => return 1
    | some expected => if !dictEquals expected (frozenEntries lib m profile) then return 1 else return 0

/-- Without it, the command writes the workloads only. -/
theorem exec_main_check (files : RunFiles) : (main lib m profile outDir false).exec files =
    (checkCode lib m profile (files (manifestPath outDir)), written lib m profile outDir files profile.seeds) := by
  have hget := written_manifestPath lib m profile outDir outDir files profile.seeds
  rw [main, Py.exec_bind_of_ok (exec_build lib m profile outDir files), if_neg Bool.false_ne_true,
    Py.exec_bind_of_ok (Py.exec_get _), hget]
  cases hfile : files (manifestPath outDir) with
  | none => rfl
  | some text =>
    rw [hfile] at hget
    rw [if_neg (by simp), Py.exec_bind_of_ok (exec_readFile hget), checkCode]
    cases hload : lib.loadManifest text with
    | error e =>
      rw [Py.exec_bind_of_error (Py.exec_ofExcept _ _)]
      rfl
    | ok expected =>
      rw [Py.exec_bind_of_ok (Py.exec_ofExcept _ _)]
      cases expected with
      | none => rfl
      | some expected =>
        show (if !dictEquals expected (frozenEntries lib m profile) then (pure 1 : Py RunFiles ℕ) else pure 0).exec _ =
          ((if !dictEquals expected (frozenEntries lib m profile) then .ok 1 else .ok 0 : Except PyError ℕ), _)
        split_ifs <;> rfl

end Build

/-! ### A frozen manifest -/

section Frozen

variable {lib : Stdlib} {m m₀ : Machine} {profile : Profile} {dir : Text} {files files' : RunFiles} {e : Event}
  {es : List Event}

/-- The manifest of the directory is the one that a machine wrote. -/
def Frozen (lib : Stdlib) (m : Machine) (profile : Profile) (dir : Text) (files : RunFiles) : Prop :=
  files (manifestPath dir) = some (manifestText lib m profile)

/-- It stays as long as it is not written. -/
theorem Frozen.step (h : Frozen lib m profile dir files) (he : ¬ e.Writes dir) (hstep : Step lib files e files') :
    Frozen lib m profile dir files' := by
  rw [Step] at hstep
  subst hstep
  cases e with
  | command m' profile' outDir updateManifest =>
    cases updateManifest with
    | true =>
      have hne : manifestPath dir ≠ manifestPath outDir :=
        fun heq => he ⟨(manifestPath_injective heq).symm, rfl⟩
      rw [Frozen, Event.apply, exec_main_update]
      dsimp only
      rw [Function.update_of_ne hne, written_manifestPath]
      exact h
    | false =>
      rw [Frozen, Event.apply, exec_main_check]
      dsimp only
      rw [written_manifestPath]
      exact h
  | copy src outDir =>
    have hne : manifestPath dir ≠ manifestPath outDir := fun heq => he (manifestPath_injective heq).symm
    rw [Frozen, Event.apply]
    cases files (manifestPath src) with
    | none => exact h
    | some text => exact (Function.update_of_ne hne ..).trans h

theorem Frozen.run (h : Frozen lib m profile dir files) (hes : ∀ e ∈ es, ¬ e.Writes dir)
    (hrun : Run (Step lib) files es files') : Frozen lib m profile dir files' :=
  hrun.invariant_of (fun _ _ _ he h hstep => h.step he hstep) hes h

/-- It is copied as it is. -/
theorem Frozen.copy {src : Text} (h : Frozen lib m profile src files) (hstep : Step lib files (.copy src dir) files') :
    Frozen lib m profile dir files' := by
  rw [Step] at hstep
  subst hstep
  rw [Frozen, Event.apply, h]
  exact Function.update_self ..

/-! ### What the check says -/

/-- Dictionaries are equal if they have the same values. -/
theorem dictEquals_iff {κ α : Type} [DecidableEq κ] [DecidableEq α] {d e : Dict κ α} :
    dictEquals d e = true ↔ ∀ k, d.get? k = e.get? k := by
  rw [dictEquals, Bool.and_eq_true, decide_eq_true_eq, List.all_eq_true]
  constructor
  · rintro ⟨hlength, hall⟩
    have hget : ∀ k v, d.get? k = some v → e.get? k = some v :=
      fun k v hk => of_decide_eq_true (hall (k, v) (Dict.get?_eq_some_iff.mp hk))
    -- as many keys, and all of the one among those of the other
    have hsub : d.keys ⊆ e.keys := by
      intro k hk
      obtain ⟨v, hv⟩ := Dict.exists_get?_of_mem (Dict.mem_keys.mp hk)
      exact Dict.mem_keys.mpr (Dict.mem_of_get? (hget k v hv))
    have hperm : d.keys.Perm e.keys := by
      refine (List.subperm_of_subset d.nodup_keys hsub).perm_of_length_le ?_
      rw [Dict.keys, Dict.keys, List.length_map, List.length_map, hlength]
    intro k
    cases hk : d.get? k with
    | some v => exact (hget k v hk).symm
    | none =>
      rw [Dict.get?_eq_none, ← Dict.mem_keys, hperm.mem_iff, Dict.mem_keys] at hk
      exact (Dict.get?_eq_none.mpr hk).symm
  · intro h
    have hmem : ∀ p, p ∈ d.items ↔ p ∈ e.items := by
      rintro ⟨k, v⟩
      rw [← Dict.get?_eq_some_iff, ← Dict.get?_eq_some_iff, h]
    have hperm : d.items.Perm e.items :=
      (List.perm_ext_iff_of_nodup (List.Nodup.of_map _ d.nodup) (List.Nodup.of_map _ e.nodup)).mpr hmem
    exact ⟨hperm.length_eq, fun p hp => decide_eq_true ((h p.1).symm.trans (Dict.get?_eq_some_iff.mpr hp))⟩

theorem nodup_seeds (profile : Profile) : profile.seeds.Nodup := by
  cases profile <;> exact List.nodup_range'

theorem get?_frozenEntries (lib : Stdlib) (m : Machine) {seed : ℕ} (h : seed ∈ profile.seeds) :
    (frozenEntries lib m profile).get? (natText seed) = some (frozenEntry lib m profile seed) := by
  have hnodup : ((profile.seeds.map fun seed => (natText seed, frozenEntry lib m profile seed)).map Prod.fst).Nodup := by
    rw [List.map_map]
    exact (nodup_seeds profile).map natText_injective
  rw [frozenEntries, Dict.get?_ofList hnodup, Dict.lookup_eq_some_iff hnodup]
  exact List.mem_map.mpr ⟨seed, h, rfl⟩

/-- Two machines have the same manifest exactly if their files have the same digests. -/
theorem frozenEntries_iff : (∀ k, (frozenEntries lib m₀ profile).get? k = (frozenEntries lib m profile).get? k) ↔
    ∀ seed ∈ profile.seeds, lib.sha256 (frozenText lib m profile seed) = lib.sha256 (frozenText lib m₀ profile seed) := by
  constructor
  · intro h seed hseed
    have hget := h (natText seed)
    rw [get?_frozenEntries lib m₀ hseed, get?_frozenEntries lib m hseed, Option.some_inj] at hget
    exact (congrArg SeedEntry.sha256 hget).symm
  · intro h k
    have hmap : (profile.seeds.map fun seed => (natText seed, frozenEntry lib m₀ profile seed)) =
        profile.seeds.map fun seed => (natText seed, frozenEntry lib m profile seed) := by
      refine List.map_congr_left fun seed hseed => ?_
      rw [frozenEntry, frozenEntry, h seed hseed]
    rw [frozenEntries, frozenEntries, hmap]

/-- The lines of a workload file. -/
def frozenLines (m : Machine) (profile : Profile) (seed : ℕ) : List Line :=
  .config (profile.config seed) :: (m.frozen profile seed).map .request

/-- What `json` documents, of the lines of a machine. -/
structure Stdlib.Exact (lib : Stdlib) (m : Machine) (profile : Profile) : Prop where
  /-- A document has one line. -/
  isLine : ∀ seed ∈ profile.seeds, ∀ l ∈ frozenLines m profile seed, IsLine (lib.dumps l)
  /-- It is read back. -/
  loads : ∀ seed ∈ profile.seeds, ∀ l ∈ frozenLines m profile seed, lib.loads (lib.dumps l ++ ['\n']) = .ok l

/-- What `json` documents, of the manifest of a machine: it is read back, up to the order of its keys. -/
def Stdlib.ReadsManifest (lib : Stdlib) (m : Machine) (profile : Profile) : Prop :=
  ∃ expected, lib.loadManifest (manifestText lib m profile) = .ok (some expected) ∧
    ∀ k, expected.get? k = (frozenEntries lib m profile).get? k

/-- The driver reads the requests that were written. -/
theorem loadWorkload_of_text (hexact : lib.Exact m profile) {seed : ℕ} (hseed : seed ∈ profile.seeds)
    (files : RunFiles) (path : Text) (hfile : files path = some (frozenText lib m profile seed)) :
    loadWorkload lib files path = .ok (m.frozen profile seed) := by
  have htext : frozenText lib m profile seed = unlines ((frozenLines m profile seed).map lib.dumps) := by
    rw [frozenText, workloadText, frozenLines, List.map_cons, List.map_map]
    rfl
  have hlines : ∀ line ∈ (frozenLines m profile seed).map lib.dumps, IsLine line := by
    intro line hline
    obtain ⟨l, hl, rfl⟩ := List.mem_map.mp hline
    exact hexact.isLine seed hseed l hl
  have hloads : (fileLines (frozenText lib m profile seed)).mapM lib.loads = .ok (frozenLines m profile seed) := by
    rw [htext, fileLines_unlines hlines, List.map_map, mapM_eq_ok, List.forall₂_map_left_iff]
    exact List.forall₂_same.mpr fun l hl => hexact.loads seed hseed l hl
  have hrequests : ∀ requests : List Request, (requests.map Line.request).filterMap
      (fun | .config _ => none | .request req => some req) = requests := by
    intro requests
    rw [List.filterMap_map]
    exact List.filterMap_some
  rw [loadWorkload, hfile]
  show ((fileLines (frozenText lib m profile seed)).mapM lib.loads >>= _) = _
  rw [hloads, ok_bind, frozenLines]
  exact congrArg Except.ok (hrequests _)

/-- The check of a frozen manifest. -/
theorem checkCode_of_frozen (hmanifest : lib.ReadsManifest m₀ profile) :
    checkCode lib m profile (some (manifestText lib m₀ profile)) =
      .ok (if ∀ seed ∈ profile.seeds, lib.sha256 (frozenText lib m profile seed) = lib.sha256 (frozenText lib m₀ profile seed)
        then 0 else 1) := by
  obtain ⟨expected, hload, hexpected⟩ := hmanifest
  have hequals : dictEquals expected (frozenEntries lib m profile) = true ↔ ∀ seed ∈ profile.seeds,
      lib.sha256 (frozenText lib m profile seed) = lib.sha256 (frozenText lib m₀ profile seed) := by
    rw [dictEquals_iff, ← frozenEntries_iff]
    simp only [hexpected]
  rw [checkCode]
  show (lib.loadManifest (manifestText lib m₀ profile) >>= _) = _
  rw [hload, ok_bind]
  show (if !dictEquals expected (frozenEntries lib m profile) then .ok 1 else .ok 0 : Except PyError ℕ) = _
  by_cases h : dictEquals expected (frozenEntries lib m profile) = true
  · rw [if_pos (hequals.mp h), h]
    rfl
  · rw [if_neg (hequals.not.mp h), Bool.not_eq_true _ |>.mp h]
    rfl

/-- **What is verified is what was frozen.** A machine freezes a profile in one directory; other commands
and copies come before and after the manifest is copied, and do not write it. Wherever the check then runs, it
passes exactly if the machine there generates the requests that were frozen, as long as no two of the files
have one digest; and what the driver loads there is what that machine generates. -/
theorem verified_replays_frozen {src : Text} {es es' : List Event} (hexact₀ : lib.Exact m₀ profile)
    (hmanifest : lib.ReadsManifest m₀ profile) (hexact : lib.Exact m profile)
    (hsha : ∀ seed ∈ profile.seeds, lib.sha256 (frozenText lib m profile seed) =
      lib.sha256 (frozenText lib m₀ profile seed) → frozenText lib m profile seed = frozenText lib m₀ profile seed)
    (hrun : Run (Step lib) files (.command m₀ profile src true :: es ++ .copy src dir :: es') files')
    (hes : ∀ e ∈ es, ¬ e.Writes src) (hes' : ∀ e ∈ es', ¬ e.Writes dir) :
    ∃ code left, (main lib m profile dir false).exec files' = (.ok code, left) ∧ code ≤ 1 ∧
      (code = 0 ↔ ∀ seed ∈ profile.seeds, m.requests profile seed = m₀.requests profile seed) ∧
      (∀ seed ∈ profile.seeds, loadWorkload lib left (workloadPath dir seed) = m.requests profile seed) ∧
      Frozen lib m₀ profile dir left := by
  obtain ⟨files₁, hfreeze, hrun⟩ := run_cons_iff.mp (List.cons_append ▸ hrun)
  obtain ⟨files₂, hrun₁, hrun⟩ := run_append_iff.mp hrun
  obtain ⟨files₃, hcopy, hrun₂⟩ := run_cons_iff.mp hrun
  have hfrozen₁ : Frozen lib m₀ profile src files₁ := by
    rw [Step] at hfreeze
    rw [hfreeze, Frozen, Event.apply, exec_main_update]
    exact Function.update_self ..
  have hfrozen : Frozen lib m₀ profile dir files' := ((hfrozen₁.run hes hrun₁).copy hcopy).run hes' hrun₂
  have hmain := exec_main_check lib m profile dir files'
  rw [hfrozen, checkCode_of_frozen hmanifest] at hmain
  have hsame : (∀ seed ∈ profile.seeds, lib.sha256 (frozenText lib m profile seed) =
      lib.sha256 (frozenText lib m₀ profile seed)) ↔
      ∀ seed ∈ profile.seeds, m.requests profile seed = m₀.requests profile seed := by
    refine forall₂_congr fun seed hseed => ?_
    rw [requests_eq, requests_eq, Except.ok.injEq]
    constructor
    · intro hdigest
      -- one file is loaded as the requests of either machine
      have htext := hsha seed hseed hdigest
      have hload := loadWorkload_of_text hexact hseed (fun _ => some (frozenText lib m profile seed)) [] rfl
      have hload₀ := loadWorkload_of_text hexact₀ hseed (fun _ => some (frozenText lib m profile seed)) []
        (congrArg some htext)
      exact Except.ok.inj (hload.symm.trans hload₀)
    · intro hrequests
      rw [frozenText, frozenText, hrequests]
  refine ⟨_, _, hmain, ?_, ?_, fun seed hseed => ?_, ?_⟩
  · split_ifs <;> decide
  · rw [← hsame]
    exact ⟨fun hcode => by_contra fun h => one_ne_zero ((if_neg h).symm.trans hcode), fun h => if_pos h⟩
  · rw [requests_eq]
    exact loadWorkload_of_text hexact hseed _ _ (written_of_mem lib m profile dir hseed files')
  · exact (written_manifestPath lib m profile dir dir files' profile.seeds).trans hfrozen

end Frozen

/-! ### A standard library -/

namespace Sample

/-- A character of a JSON string. -/
def escapeChar (c : Char) : Text :=
  if c = '\n' then "\\n".toList else if c = '\r' then "\\r".toList
  else if c = '"' then "\\\"".toList else if c = '\\' then "\\\\".toList else [c]

/-- What a character after a backslash stands for. -/
def unescapeChar (c : Char) : Char := if c = 'n' then '\n' else if c = 'r' then '\r' else c

/-- The characters of a JSON string. -/
def escape (text : Text) : Text := text.flatMap escapeChar

/-- What they stand for. -/
def unescape : Text → Text
  | [] => []
  | [c] => [c]
  | c :: c' :: text => if c = '\\' then unescapeChar c' :: unescape text else c :: unescape (c' :: text)

theorem unescape_cons {c : Char} (h : c ≠ '\\') (text : Text) : unescape (c :: text) = c :: unescape text := by
  cases text with
  | nil => rfl
  | cons c' text => rw [unescape, if_neg h]

theorem unescape_escape (text : Text) : unescape (escape text) = text := by
  induction text with
  | nil => rfl
  | cons c text ih =>
    have hcons : escape (c :: text) = escapeChar c ++ escape text := rfl
    rw [hcons, escapeChar]
    split_ifs with hn hr hquote hback
    · rw [hn]
      exact congrArg _ ih
    · rw [hr]
      exact congrArg _ ih
    · rw [hquote]
      exact congrArg _ ih
    · rw [hback]
      exact congrArg _ ih
    · rw [List.singleton_append, unescape_cons hback, ih]

theorem isLine_escape (text : Text) : IsLine (escape text) := by
  have hchar : ∀ c : Char, IsLine (escapeChar c) := by
    intro c
    rw [escapeChar]
    split_ifs with hn hr
    · decide
    · decide
    · decide
    · decide
    · exact ⟨fun h => hn (List.mem_singleton.mp h).symm, fun h => hr (List.mem_singleton.mp h).symm⟩
  constructor <;> intro h <;> obtain ⟨c, -, hc⟩ := List.mem_flatMap.mp h
  · exact (hchar c).1 hc
  · exact (hchar c).2 hc

theorem isLine_intText (n : ℤ) : IsLine (intText n) := by
  constructor <;> intro h <;> exact absurd (isSpace_eq_false_of_mem_intText h) (by decide)

/-- A member of a JSON object. -/
def field (name : String) (value : Text) : Text := '"' :: name.toList ++ "\": ".toList ++ value

/-- A JSON object. -/
def object (fields : List Text) : Text := '\x7b' :: ", ".toList.intercalate fields ++ ['\x7d']

/-- A JSON string. -/
def quote (text : Text) : Text := '"' :: escape text ++ ['"']

/-- A float with one decimal place. -/
def tenths (q : ℚ) : Text := intText q.floor ++ '.' :: intText (10 * (q - q.floor)).floor

/-- `json.dumps` of a config. -/
def dumpsConfig : Config → Text
  | .zipfian cfg => object [field "num_requests" (intText cfg.numRequests),
      field "prefix_pool_size" (intText cfg.prefixPoolSize), field "zipf_s" (tenths cfg.zipfS),
      field "prefix_tokens" (intText cfg.prefixTokens), field "suffix_tokens" (intText cfg.suffixTokens),
      field "pool_seed" (intText cfg.poolSeed), field "seed" (intText cfg.seed)]
  | .novel cfg => object [field "num_requests" (intText cfg.numRequests),
      field "prompt_tokens" (intText cfg.promptTokens), field "suffix_tokens" (intText cfg.suffixTokens),
      field "seed" (intText cfg.seed)]

/-- `json.dumps`. -/
def dumps : Line → Text
  | .config cfg => object [field "config" (dumpsConfig cfg)]
  | .request req => object [field "index" (natText req.index), field "prefix_id" (natText req.prefixId),
      field "prompt" (quote req.prompt)]

theorem isLine_object {fields : List Text} (h : ∀ text ∈ fields, IsLine text) : IsLine (object fields) := by
  have hsep : IsLine (", ".toList.intercalate fields) := by
    induction fields with
    | nil => decide
    | cons text fields ih =>
      have htext := h text List.mem_cons_self
      have hrest := ih fun text' h' => h text' (List.mem_cons_of_mem _ h')
      cases fields with
      | nil => simpa [List.intercalate] using htext
      | cons text' fields =>
        rw [List.intercalate_cons_cons]
        exact (htext.append (by decide)).append hrest
  have hopen : IsLine ['\x7b'] := by decide
  exact (hopen.append hsep).append (by decide)

theorem isLine_field {name : String} {value : Text} (hname : IsLine name.toList) (h : IsLine value) :
    IsLine (field name value) := by
  have hquote : IsLine ['"'] := by decide
  exact ((hquote.append hname).append (by decide)).append h

/-- Two numerals, before the next member. -/
theorem eq_of_natText_comma {n n' : ℕ} {text text' : Text} (h : natText n ++ ',' :: text = natText n' ++ ',' :: text') :
    n = n' ∧ text = text' := by
  by_cases hn : natText n = natText n'
  · rw [hn, List.append_cancel_left_eq] at h
    exact ⟨natText_injective hn, (List.cons.inj h).2⟩
  · exact absurd h (diverge_of_ne (p := Char.isDigit) (fun c hc => isDigit_of_mem_natText hc)
      (fun c hc => isDigit_of_mem_natText hc) rfl rfl hn).ne

/-- The requests have different documents. -/
theorem dumps_request_injective : Function.Injective fun req => dumps (.request req) := by
  rintro ⟨index, prefixId, prompt⟩ ⟨index', prefixId', prompt'⟩ h
  have hshape (req : Request) : dumps (.request req) = "\x7b\"index\": ".toList ++ (natText req.index ++ ',' ::
      (" \"prefix_id\": ".toList ++ (natText req.prefixId ++ ',' ::
        (" \"prompt\": \"".toList ++ (escape req.prompt ++ "\"\x7d".toList))))) := by
    simp [dumps, object, field, quote, List.intercalate]
  dsimp only at h
  rw [hshape, hshape, List.append_cancel_left_eq] at h
  obtain ⟨rfl, h⟩ := eq_of_natText_comma h
  rw [List.append_cancel_left_eq] at h
  obtain ⟨rfl, h⟩ := eq_of_natText_comma h
  rw [List.append_cancel_left_eq, List.append_cancel_right_eq] at h
  have hprompt := congrArg unescape h
  rw [unescape_escape, unescape_escape] at hprompt
  dsimp only at hprompt
  rw [hprompt]

/-- So have the configs of the seeds. -/
theorem dumps_config_injective : Function.Injective fun seed : ℕ => dumps (.config (.novel (novelFrozenConfig seed))) := by
  intro seed seed' h
  have hshape (seed : ℕ) : dumps (.config (.novel (novelFrozenConfig seed))) =
      ("\x7b\"config\": \x7b\"num_requests\": 500, \"prompt_tokens\": 2048, \"suffix_tokens\": 32, \"seed\": ".toList ++
        natText seed) ++ "\x7d\x7d".toList := by
    have hnumerals : intText 500 = "500".toList ∧ intText 2048 = "2048".toList ∧ intText 32 = "32".toList := by decide
    have hseed : intText seed = natText seed := rfl
    simp [dumps, dumpsConfig, novelFrozenConfig, object, field, List.intercalate, hnumerals, hseed]
  dsimp only at h
  rw [hshape, hshape, List.append_cancel_right_eq, List.append_cancel_left_eq] at h
  exact natText_injective h

/-- No config has the document of a request. -/
theorem dumps_config_ne (seed : ℕ) (req : Request) :
    dumps (.config (.novel (novelFrozenConfig seed))) ≠ dumps (.request req) := by
  intro h
  have hthird := congrArg (fun text => text[2]?) h
  simp [dumps, object, field, List.intercalate] at hthird

/-- Generation that draws one word after the other, from some word on. -/
def cycling (drift : ℕ) : Machine :=
  ⟨{ PyRandom.cycle with init := fun seed => seed.toNat + drift }, fun _ _ => .ok 1, fun _ _ _ => ⟨1, one_pos, rfl⟩⟩

/-- The lines of the novel profile, on a machine and on one that has drifted. -/
def novelLines : List Line :=
  [0, 1].flatMap fun drift => Profile.novel.seeds.flatMap (frozenLines (cycling drift) .novel)

/-- A text as a number, each character a digit. -/
def code (text : Text) : ℕ := text.foldl (fun n c => 2 ^ 21 * n + c.toNat) 1

/-- A digest without collisions. -/
def digest (text : Text) : Text := natText (code text)

/-- `json.loads`, of these lines. -/
def loads (text : Text) : Except PyError Line :=
  match novelLines.find? fun l => dumps l ++ ['\n'] = text with
  | some l => .ok l
  | none => .error (.other "JSONDecodeError")

/-- `json.dumps` of an entry. -/
def dumpsEntry (entry : Text × SeedEntry) : Text :=
  quote entry.1 ++ ": ".toList ++ object [field "config" (dumpsConfig entry.2.config),
    field "file" (quote entry.2.file), field "sha256" (quote entry.2.sha256)]

/-- `json.dump` of a manifest. -/
def dumpManifest (entries : Dict Text SeedEntry) : Text :=
  object [field "seeds" (object (entries.items.map dumpsEntry))]

/-- The manifest of the novel profile, on the first machine. -/
def novelEntries : Dict Text SeedEntry :=
  Dict.ofList (Profile.novel.seeds.map fun seed => (natText seed, ⟨fileName seed,
    digest (unlines ((frozenLines (cycling 0) .novel seed).map dumps)), Profile.novel.config seed⟩))

/-- A standard library that reads the documents of both machines. -/
def stdlib : Stdlib where
  dumps := dumps
  loads := loads
  dumpManifest := dumpManifest
  loadManifest text := if text = dumpManifest novelEntries ++ ['\n'] then .ok (some novelEntries) else .ok none
  sha256 := digest

theorem isLine_dumpsConfig (cfg : Config) : IsLine (dumpsConfig cfg) := by
  have hfield {name : String} {n : ℤ} (hname : IsLine name.toList) : IsLine (field name (intText n)) :=
    isLine_field hname (isLine_intText n)
  cases cfg with
  | zipfian cfg =>
    have hpoint : IsLine ['.'] := by decide
    have htenths : IsLine (tenths cfg.zipfS) := (isLine_intText _).append (hpoint.append (isLine_intText _))
    apply isLine_object
    intro text htext
    simp only [List.mem_cons, List.not_mem_nil, or_false] at htext
    rcases htext with rfl | rfl | rfl | rfl | rfl | rfl | rfl
    · exact hfield (by decide)
    · exact hfield (by decide)
    · exact isLine_field (by decide) htenths
    · exact hfield (by decide)
    · exact hfield (by decide)
    · exact hfield (by decide)
    · exact hfield (by decide)
  | novel cfg =>
    apply isLine_object
    intro text htext
    simp only [List.mem_cons, List.not_mem_nil, or_false] at htext
    rcases htext with rfl | rfl | rfl | rfl
    · exact hfield (by decide)
    · exact hfield (by decide)
    · exact hfield (by decide)
    · exact hfield (by decide)

theorem isLine_dumps (l : Line) : IsLine (dumps l) := by
  cases l with
  | config cfg =>
    apply isLine_object
    intro text htext
    rw [List.mem_singleton.mp htext]
    exact isLine_field (by decide) (isLine_dumpsConfig cfg)
  | request req =>
    have hquote : IsLine (quote req.prompt) := by
      have hopen : IsLine ['"'] := by decide
      exact (hopen.append (isLine_escape req.prompt)).append hopen
    apply isLine_object
    intro text htext
    simp only [List.mem_cons, List.not_mem_nil, or_false] at htext
    rcases htext with rfl | rfl | rfl
    · exact isLine_field (by decide) (isLine_intText req.index)
    · exact isLine_field (by decide) (isLine_intText req.prefixId)
    · exact isLine_field (by decide) hquote

theorem loads_dumps {l : Line} (h : l ∈ novelLines) : loads (dumps l ++ ['\n']) = .ok l := by
  have hinj : ∀ l' ∈ novelLines, dumps l' = dumps l → l' = l := by
    intro l' h' heq
    obtain ⟨drift, -, h⟩ := List.mem_flatMap.mp h
    obtain ⟨drift', -, h'⟩ := List.mem_flatMap.mp h'
    obtain ⟨seed, -, hseed⟩ := List.mem_flatMap.mp h
    obtain ⟨seed', -, hseed'⟩ := List.mem_flatMap.mp h'
    rcases List.mem_cons.mp hseed with rfl | hreq
    · rcases List.mem_cons.mp hseed' with rfl | hreq'
      · rw [dumps_config_injective heq]
      · obtain ⟨req, -, rfl⟩ := List.mem_map.mp hreq'
        exact absurd heq.symm (dumps_config_ne seed req)
    · obtain ⟨req, -, rfl⟩ := List.mem_map.mp hreq
      rcases List.mem_cons.mp hseed' with rfl | hreq'
      · exact absurd heq (dumps_config_ne seed' req)
      · obtain ⟨req', -, rfl⟩ := List.mem_map.mp hreq'
        rw [dumps_request_injective heq]
  rw [loads]
  cases hfind : novelLines.find? fun l' => dumps l' ++ ['\n'] = dumps l ++ ['\n'] with
  | none => simpa using List.find?_eq_none.mp hfind l h
  | some l' =>
    have hfound := List.find?_some hfind
    rw [decide_eq_true_eq, List.append_cancel_right_eq] at hfound
    exact congrArg Except.ok (hinj l' (List.mem_of_find?_eq_some hfind) hfound)

theorem exact_stdlib (drift : ℕ) (hdrift : drift ∈ [0, 1]) : stdlib.Exact (cycling drift) .novel where
  isLine _ _ l _ := isLine_dumps l
  loads _ hseed _ hl :=
    loads_dumps (List.mem_flatMap.mpr ⟨_, hdrift, List.mem_flatMap.mpr ⟨_, hseed, hl⟩⟩)

theorem readsManifest_stdlib : stdlib.ReadsManifest (cycling 0) .novel := by
  have htext (seed : ℕ) :
      frozenText stdlib (cycling 0) .novel seed = unlines ((frozenLines (cycling 0) .novel seed).map dumps) := by
    rw [frozenText, workloadText, frozenLines, List.map_cons, List.map_map]
    rfl
  have hentries : novelEntries = frozenEntries stdlib (cycling 0) .novel := by
    refine congrArg Dict.ofList (List.map_congr_left fun seed _ => ?_)
    have hdigest : stdlib.sha256 = digest := rfl
    rw [frozenEntry, htext, hdigest]
  refine ⟨novelEntries, ?_, fun k => by rw [hentries]⟩
  have hdump : stdlib.dumpManifest = dumpManifest := rfl
  have hload (text : Text) : stdlib.loadManifest text =
      if text = dumpManifest novelEntries ++ ['\n'] then .ok (some novelEntries) else .ok none := rfl
  rw [manifestText, ← hentries, hdump, hload, if_pos rfl]

/-! #### The digest -/

theorem code_append_singleton (text : Text) (c : Char) : code (text ++ [c]) = 2 ^ 21 * code text + c.toNat := by
  rw [code, List.foldl_append, List.foldl_cons, List.foldl_nil]
  rfl

theorem code_pos (text : Text) : 0 < code text := by
  induction text using List.reverseRecOn with
  | nil => exact one_pos
  | append_singleton text c ih =>
    rw [code_append_singleton]
    positivity

theorem toNat_lt (c : Char) : c.toNat < 2 ^ 21 := by
  have hvalid := c.valid
  rw [UInt32.isValidChar, Nat.isValidChar] at hvalid
  have hval : c.toNat = c.val.toNat := rfl
  omega

/-- The last digit is read back, and then the others. -/
theorem code_injective : Function.Injective code := by
  intro text
  induction text using List.reverseRecOn with
  | nil =>
    intro text' h
    rcases List.eq_nil_or_concat text' with rfl | ⟨text', c, rfl⟩
    · rfl
    · rw [List.concat_eq_append, code_append_singleton] at h
      have hone : code [] = 1 := rfl
      have hpos := code_pos text'
      omega
  | append_singleton text c ih =>
    intro text' h
    rcases List.eq_nil_or_concat text' with rfl | ⟨text', c', rfl⟩
    · rw [code_append_singleton] at h
      have hone : code [] = 1 := rfl
      have hpos := code_pos text
      omega
    · rw [List.concat_eq_append, code_append_singleton, code_append_singleton] at h
      have hlt := toNat_lt c
      have hlt' := toNat_lt c'
      have hcode : code text = code text' := by omega
      have hlast : c.toNat = c'.toNat := by omega
      rw [ih hcode, List.concat_eq_append, Char.toNat_inj.mp hlast]

theorem digest_injective : Function.Injective digest := fun _ _ h => code_injective (natText_injective h)

/-! #### The drift -/

/-- The first word that a machine draws. -/
theorem exec_filler_cycling (drift : ℕ) (approxTokens : ℤ) (tag : Text) (s : ℕ) :
    ∃ word text s', words[s % words.length]? = some word ∧
      (filler (cycling drift).rng approxTokens tag).exec s = (.ok text, s') ∧ tag ++ ' ' :: word <+: text := by
  have hlt : s % words.length < words.length := Nat.mod_lt _ (by decide)
  obtain ⟨k, hk⟩ : ∃ k, (max 1 (Int.tdiv (3 * approxTokens) 4)).toNat = k + 1 :=
    ⟨_, (Nat.succ_pred_eq_of_pos (by omega)).symm⟩
  obtain ⟨drawn, hdrawn⟩ : ∃ drawn, (List.range (k + 1)).filterMap (fun j => words[(s + j) % words.length]?) =
      words[s % words.length] :: drawn := by
    refine ⟨((List.range k).map Nat.succ).filterMap fun j => words[(s + j) % words.length]?, ?_⟩
    rw [List.range_succ_eq_map, List.filterMap_cons, Nat.add_zero, List.getElem?_eq_getElem hlt]
  have hchoices : ((cycling drift).rng.choices words none (k + 1)).exec s =
      (.ok (words[s % words.length] :: drawn), (s + (k + 1) : ℕ)) := by
    rw [← hdrawn]
    rfl
  obtain ⟨text, htext⟩ := prefix_join words[s % words.length] drawn
  refine ⟨words[s % words.length], tag ++ ' ' :: [' '].intercalate (words[s % words.length] :: drawn),
    (s + (k + 1) : ℕ), List.getElem?_eq_getElem hlt, ?_, text, ?_⟩
  · have hjoin : [' '].intercalate (tag :: words[s % words.length] :: drawn) =
        tag ++ ' ' :: [' '].intercalate (words[s % words.length] :: drawn) := by simp
    rw [filler, hk, Py.exec_bind_of_ok hchoices, hjoin]
    rfl
  · rw [← htext]
    simp

/-- The first request of a machine. -/
theorem exists_first (drift : ℕ) : ∃ word req rest, words[(2 + drift) % words.length]? = some word ∧
    (cycling drift).requests .novel 1 = .ok (req :: rest) ∧ novelTag 1 0 ++ ' ' :: word <+: req.prompt := by
  obtain ⟨word, body, s₁, hword, hbody, hprompt⟩ := exec_filler_cycling drift
    (novelFrozenConfig 1).promptTokens (novelTag (novelFrozenConfig 1).seed 0) (2 + drift)
  obtain ⟨suffix, s₂, hsuffix, -⟩ :=
    exec_filler (cycling drift).rng (novelFrozenConfig 1).suffixTokens (queryTag 0) s₁
  have hfirst : (novelRequest (cycling drift).rng (novelFrozenConfig 1) 0).exec (2 + drift : ℕ) =
      (.ok ⟨0, 0, body ++ '\n' :: suffix⟩, s₂) := by
    rw [novelRequest, Py.exec_bind_of_ok hbody, Py.exec_bind_of_ok hsuffix]
    rfl
  obtain ⟨rest, s₃, hrest, -⟩ := Py.exec_mapM (l := (List.range 499).map Nat.succ)
    (fun i _ s => exec_novelRequest (cycling drift).rng (novelFrozenConfig 1) i s) s₂
  refine ⟨word, ⟨0, 0, body ++ '\n' :: suffix⟩, rest, hword, ?_, hprompt.trans (List.prefix_append _ _)⟩
  have hrange : List.range (novelFrozenConfig 1).numRequests.toNat = 0 :: (List.range 499).map Nat.succ :=
    List.range_succ_eq_map
  have hinit : (cycling drift).rng.init ((novelFrozenConfig 1).seed + 1) = (2 + drift : ℕ) := rfl
  show (((List.range (novelFrozenConfig 1).numRequests.toNat).mapM
    (novelRequest (cycling drift).rng (novelFrozenConfig 1))).exec _).1 = _
  rw [hrange, List.mapM_cons, hinit, Py.exec_bind_of_ok hfirst, Py.exec_bind_of_ok hrest]
  rfl

/-- The machines generate different requests: the first words differ. -/
theorem requests_cycling_ne : (cycling 1).requests .novel 1 ≠ (cycling 0).requests .novel 1 := by
  intro h
  obtain ⟨word, req, rest, hword, hrequests, hprompt⟩ := exists_first 0
  obtain ⟨word', req', rest', hword', hrequests', hprompt'⟩ := exists_first 1
  obtain rfl : word = "document".toList := Option.some.inj (hword.symm.trans (by decide))
  obtain rfl : word' = "retrieval".toList := Option.some.inj (hword'.symm.trans (by decide))
  have hlists := Except.ok.inj (hrequests'.symm.trans (h.trans hrequests))
  obtain rfl : req' = req := (List.cons.inj hlists).1
  have hwords : Diverge "document".toList "retrieval".toList :=
    ⟨[], 'd', 'r', "ocument".toList, "etrieval".toList, by decide, rfl, rfl⟩
  obtain ⟨text, htext⟩ := hprompt
  obtain ⟨text', htext'⟩ := hprompt'
  exact (((hwords.append_left [' ']).append_left (novelTag 1 0)).append text text').ne (htext.trans htext'.symm)

end Sample

/-- The novel profile is frozen in `workloads`, and another beside it. In `out` it is replayed by the machine that
froze it, and refused by one that has drifted. -/
theorem verified_replays_frozen_novel : ∃ files left left',
    Run (Step Sample.stdlib) (fun _ => none) [.command (Sample.cycling 0) .novel "workloads".toList true,
      .command (Sample.cycling 0) .zipfian "data".toList true, .copy "workloads".toList "out".toList,
      .command (Sample.cycling 1) .novel "out".toList false] files ∧
    (main Sample.stdlib (Sample.cycling 0) .novel "out".toList false).exec files = (.ok 0, left) ∧
    loadWorkload Sample.stdlib left "out/seed-3.jsonl".toList = (Sample.cycling 0).requests .novel 3 ∧
    (main Sample.stdlib (Sample.cycling 1) .novel "out".toList false).exec files = (.ok 1, left') := by
  obtain ⟨files, hrun⟩ : ∃ files, Run (Step Sample.stdlib) (fun _ => none)
      [.command (Sample.cycling 0) .novel "workloads".toList true,
        .command (Sample.cycling 0) .zipfian "data".toList true, .copy "workloads".toList "out".toList,
        .command (Sample.cycling 1) .novel "out".toList false] files :=
    ⟨_, .cons rfl (.cons rfl (.cons rfl (.cons rfl (.nil _))))⟩
  have hes : ∀ e ∈ [Event.command (Sample.cycling 0) .zipfian "data".toList true], ¬ e.Writes "workloads".toList := by
    intro e he
    rw [List.mem_singleton.mp he]
    exact fun h => absurd h.1 (by decide)
  have hes' : ∀ e ∈ [Event.command (Sample.cycling 1) .novel "out".toList false], ¬ e.Writes "out".toList := by
    intro e he
    rw [List.mem_singleton.mp he]
    exact fun h => absurd h.2 (by decide)
  have hexact₀ := Sample.exact_stdlib 0 (by decide)
  have hexact₁ := Sample.exact_stdlib 1 (by decide)
  obtain ⟨code, left, hmain, -, hcode, hload, -⟩ := verified_replays_frozen hexact₀ Sample.readsManifest_stdlib
    hexact₀ (fun _ _ h => Sample.digest_injective h) hrun hes hes'
  obtain ⟨code', left', hmain', hle, hcode', -⟩ := verified_replays_frozen hexact₀ Sample.readsManifest_stdlib
    hexact₁ (fun _ _ h => Sample.digest_injective h) hrun hes hes'
  have hdrifted : code' ≠ 0 := fun h => Sample.requests_cycling_ne (hcode'.mp h 1 (by decide))
  rw [hcode.mpr fun _ _ => rfl] at hmain
  rw [show code' = 1 by omega] at hmain'
  exact ⟨files, left, left', hrun, hmain, hload 3 (by decide), hmain'⟩

end CachingInLLMs.Benchmarks.FrozenDataset
