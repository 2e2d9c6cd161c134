import RunAlexDb.Lib.Trace
import RunAlexDb.Lib.Utf8
import RunAlexDb.Model.Persistence

/-!
# Checkpoints — what the dump file holds

Whatever the sessions, the two tasks and the ends of the process come to, the file
holds a whole dump, in which every database is as the server had it at some moment, or
what it held at the very beginning; unless the write of a shutdown was cut short and
no checkpoint has been renamed since.

Main result: `persisted_run`.
-/

set_option linter.unusedSectionVars false

namespace RunAlexDb

open Text Platform

section Checkpoints

variable [Platform]

-- ---------------------------------------------------------------------------
-- Dumps
-- ---------------------------------------------------------------------------

/-- Each database is one that an engine had. -/
def TakenFrom (seen : List Engine) (parts : List (Str × Database)) : Prop :=
  ∀ p ∈ parts, ∃ e ∈ seen, e.databases.get p.1 = some p.2

/-- A dump of the user databases that an engine had, each as it was in one of them. -/
def WholeDump (seen : List Engine) (text : Str) : Prop :=
  ∃ ts parts, text = dumpOf ts parts ∧ (∃ e ∈ seen, e.userDatabases.map Prod.fst = parts.map Prod.fst) ∧
    TakenFrom seen parts

/-- A dump of one engine, at one moment, is whole. -/
theorem wholeDump_dumpSql {seen : List Engine} {e : Engine} (h : e ∈ seen) (ts : Nat) :
    WholeDump seen (e.dumpSql ts) := by
  refine ⟨ts, e.userDatabases, rfl, ⟨e, h, rfl⟩, fun p hp => ⟨e, h, ?_⟩⟩
  exact HashMap.get_eq_some_iff.2 (List.mem_filter.1 hp).1

/-- A dump under way on the engine `e`. -/
structure DumpTask.From (seen : List Engine) (e : Engine) (d : DumpTask) : Prop where
  names : ∃ b ∈ seen, b.userDatabases.map Prod.fst = d.parts.map Prod.fst ++ d.todo
  taken : TakenFrom seen d.parts
  there : ∀ name ∈ d.todo, name ∈ e.databases.keys

theorem from_beginDump {seen : List Engine} {e : Engine} (h : e ∈ seen) (ts : Nat) :
    (e.beginDump ts).From seen e where
  names := ⟨e, h, rfl⟩
  taken := fun p hp => absurd hp List.not_mem_nil
  there := by
    intro name hName
    obtain ⟨p, hp, rfl⟩ := List.mem_map.1 hName
    exact List.mem_map_of_mem (List.mem_filter.1 hp).1

theorem from_read {seen : List Engine} {e : Engine} (h : e ∈ seen) {d : DumpTask} (hFrom : d.From seen e) :
    (d.read e).From seen e := by
  obtain ⟨ts, parts, _ | ⟨name, todo⟩⟩ := d
  · exact hFrom
  · obtain ⟨db, hGet⟩ : ∃ db, e.databases.get name = some db := by
      rw [← Option.ne_none_iff_exists']
      exact fun hNone => HashMap.get_eq_none_iff.1 hNone (hFrom.there name (List.mem_cons_self ..))
    unfold DumpTask.read
    dsimp only
    rw [hGet]
    refine ⟨?_, ?_, fun n hn => hFrom.there n (List.mem_cons_of_mem _ hn)⟩
    · obtain ⟨b, hb, hNames⟩ := hFrom.names
      refine ⟨b, hb, hNames.trans ?_⟩
      simp
    · intro p hp
      rcases List.mem_append.1 hp with hp | hp
      · exact hFrom.taken p hp
      · rw [List.mem_singleton.1 hp]
        exact ⟨e, h, hGet⟩

/-- With nothing to come the dump is whole. -/
theorem wholeDump_of_from {seen : List Engine} {e : Engine} {ts : Nat} {parts : List (Str × Database)}
    (h : (⟨ts, parts, []⟩ : DumpTask).From seen e) : WholeDump seen (dumpOf ts parts) := by
  obtain ⟨b, hb, hNames⟩ := h.names
  exact ⟨ts, parts, rfl, ⟨b, hb, by rwa [List.append_nil] at hNames⟩, h.taken⟩

theorem WholeDump.mono {seen seen' : List Engine} (hSub : seen ⊆ seen') {text : Str} (h : WholeDump seen text) :
    WholeDump seen' text := by
  obtain ⟨ts, parts, hText, ⟨e, he, hNames⟩, hTaken⟩ := h
  refine ⟨ts, parts, hText, ⟨e, hSub he, hNames⟩, fun p hp => ?_⟩
  obtain ⟨b, hb, hGet⟩ := hTaken p hp
  exact ⟨b, hSub hb, hGet⟩

theorem DumpTask.From.mono {seen seen' : List Engine} (hSub : seen ⊆ seen') {e : Engine} {d : DumpTask}
    (h : d.From seen e) : d.From seen' e where
  names := by
    obtain ⟨b, hb, hNames⟩ := h.names
    exact ⟨b, hSub hb, hNames⟩
  taken := fun p hp => by
    obtain ⟨b, hb, hGet⟩ := h.taken p hp
    exact ⟨b, hSub hb, hGet⟩
  there := h.there

-- ---------------------------------------------------------------------------
-- The invariant
-- ---------------------------------------------------------------------------

/-- A life with the engines it has passed, and whether a shutdown has begun to write
the file that it has neither finished nor a checkpoint replaced. -/
structure History where
  life : Life
  seen : List Engine
  torn : Bool

/-- The file is whole again after the write of the shutdown and after a rename. -/
def Life.tornAfter (l : Life) (torn : Bool) : LifeMove → Bool
  | .shutdown (.creates true) =>
    match l.shutdown with
    | .dumping ⟨_, _, []⟩ => true
    | _ => torn
  | .shutdown (.writeEnds true) =>
    match l.shutdown with
    | .writing _ true => false
    | _ => torn
  | .checkpoint (.renames true) =>
    match l.checkpoint with
    | .written => false
    | _ => torn
  | _ => torn

def History.step (cfg : Config) (h : History) (m : LifeMove) : History :=
  ⟨h.life.step cfg m, h.seen ++ (h.life.step cfg m).engine.toList, h.life.tornAfter h.torn m⟩

/-- What the file holds. -/
def FileHolds (start : Option Bytes) (seen : List Engine) (torn : Bool) (file : Option Bytes) : Prop :=
  if torn then ∃ text n, WholeDump seen text ∧ file = some ((bytes text).take n)
  else file = start ∨ ∃ text, WholeDump seen text ∧ file = some (bytes text)

def CheckpointTask.Sound (seen : List Engine) (engine : Option Engine) (tmp : Option Bytes) :
    CheckpointTask → Prop
  | .waiting => True
  | .dumping d => ∃ e, engine = some e ∧ d.From seen e
  | .writing text => WholeDump seen text
  | .written => ∃ text, WholeDump seen text ∧ tmp = some (bytes text)

def ShutdownTask.Sound (seen : List Engine) (engine : Option Engine) (torn : Bool) : ShutdownTask → Prop
  | .waiting => True
  | .dumping d => ∃ e, engine = some e ∧ d.From seen e
  | .writing text inPlace => WholeDump seen text ∧ (inPlace = true → torn = true)
  | .exiting => True

/-- What holds between the moves of a life. -/
structure Persisted (start : Option Bytes) (seen : List Engine) (torn : Bool) (l : Life) : Prop where
  passed : ∀ e, l.engine = some e → e ∈ seen
  checkpoint : l.checkpoint.Sound seen l.engine l.disk.tmp
  shutdown : l.shutdown.Sound seen l.engine torn
  file : FileHolds start seen torn l.disk.file
  /-- Without a process the tasks are gone. -/
  ended : l.engine = none → l.checkpoint = .waiting ∧ l.shutdown = .waiting

section Steps

variable {start : Option Bytes} {seen seen' : List Engine} {torn : Bool}

theorem FileHolds.mono (hSub : seen ⊆ seen') {file : Option Bytes} (h : FileHolds start seen torn file) :
    FileHolds start seen' torn file := by
  unfold FileHolds at h ⊢
  split_ifs at h ⊢
  · obtain ⟨text, n, hWhole, hFile⟩ := h
    exact ⟨text, n, hWhole.mono hSub, hFile⟩
  · rcases h with hStart | ⟨text, hWhole, hFile⟩
    · exact .inl hStart
    · exact .inr ⟨text, hWhole.mono hSub, hFile⟩

theorem CheckpointTask.Sound.mono (hSub : seen ⊆ seen') {engine : Option Engine} {tmp : Option Bytes}
    {t : CheckpointTask} (h : t.Sound seen engine tmp) : t.Sound seen' engine tmp := by
  rcases t with _ | d | text | _
  · trivial
  · obtain ⟨e, he, hFrom⟩ := h
    exact ⟨e, he, hFrom.mono hSub⟩
  · exact WholeDump.mono hSub h
  · obtain ⟨text, hWhole, hTmp⟩ := h
    exact ⟨text, hWhole.mono hSub, hTmp⟩

theorem ShutdownTask.Sound.mono (hSub : seen ⊆ seen') {engine : Option Engine} {t : ShutdownTask}
    (h : t.Sound seen engine torn) : t.Sound seen' engine torn := by
  rcases t with _ | d | ⟨text, inPlace⟩ | _
  · trivial
  · obtain ⟨e, he, hFrom⟩ := h
    exact ⟨e, he, hFrom.mono hSub⟩
  · exact ⟨h.1.mono hSub, h.2⟩
  · trivial

theorem Persisted.mono (hSub : seen ⊆ seen') {l : Life} (h : Persisted start seen torn l) :
    Persisted start seen' torn l :=
  ⟨fun e he => hSub (h.passed e he), h.checkpoint.mono hSub, h.shutdown.mono hSub, h.file.mono hSub, h.ended⟩

/-- The file after a write that was cut short. -/
theorem fileHolds_cut {text : Str} (h : WholeDump seen text) (n : Nat) :
    FileHolds start seen true (some ((bytes text).take n)) := ⟨text, n, h, rfl⟩

theorem fileHolds_whole {text : Str} (h : WholeDump seen text) :
    FileHolds start seen false (some (bytes text)) := .inr ⟨text, h, rfl⟩

variable {e : Engine} {c : CheckpointTask} {s : ShutdownTask} {disk : Disk}

/-- A shutdown whose file has lost its name writes nothing that is read. -/
theorem sound_renamed (h : s.Sound seen (some e) torn) : s.renamed.Sound seen (some e) false := by
  rcases s with _ | d | ⟨text, inPlace⟩ | _
  · trivial
  · exact h
  · exact ⟨h.1, nofun⟩
  · trivial

theorem persisted_checkpoint (h : Persisted start seen torn ⟨some e, c, s, disk⟩) (m : CheckpointMove) :
    Persisted start seen (Life.tornAfter ⟨some e, c, s, disk⟩ torn (.checkpoint m))
      (Life.checkpointStep ⟨some e, c, s, disk⟩ e m) := by
  have hSound := h.checkpoint
  have hIn : e ∈ seen := h.passed e rfl
  rcases m with ts | _ | ok | n | ok | ok
  · rcases c with _ | d | text | _
    · exact ⟨h.passed, ⟨e, rfl, from_beginDump hIn ts⟩, h.shutdown, h.file, nofun⟩
    · exact h
    · exact h
    · exact h
  · rcases c with _ | d | text | _
    · exact h
    · obtain ⟨b, hSame, hFrom⟩ := hSound
      obtain rfl : e = b := Option.some.inj hSame
      exact ⟨h.passed, ⟨_, rfl, from_read hIn hFrom⟩, h.shutdown, h.file, nofun⟩
    · exact h
    · exact h
  · rcases c with _ | ⟨ts, parts, _ | ⟨name, todo⟩⟩ | text | _
    · exact h
    · obtain ⟨_, -, hFrom⟩ := hSound
      rcases ok with _ | _
      · exact ⟨h.passed, trivial, h.shutdown, h.file, nofun⟩
      · exact ⟨h.passed, wholeDump_of_from hFrom, h.shutdown, h.file, nofun⟩
    · exact h
    · exact h
    · exact h
  · rcases c with _ | d | text | _
    · exact h
    · exact h
    · exact ⟨h.passed, hSound, h.shutdown, h.file, nofun⟩
    · exact h
  · rcases c with _ | d | text | _
    · exact h
    · exact h
    · rcases ok with _ | _
      · exact ⟨h.passed, trivial, h.shutdown, h.file, nofun⟩
      · exact ⟨h.passed, ⟨text, hSound, rfl⟩, h.shutdown, h.file, nofun⟩
    · exact h
  · rcases c with _ | d | text | _
    · rcases ok with _ | _ <;> exact h
    · rcases ok with _ | _ <;> exact h
    · rcases ok with _ | _ <;> exact h
    · obtain ⟨text, hWhole, hTmp⟩ := hSound
      rcases ok with _ | _
      · exact ⟨h.passed, trivial, h.shutdown, h.file, nofun⟩
      · -- the dump that was written is now the file
        refine ⟨h.passed, trivial, sound_renamed h.shutdown, ?_, nofun⟩
        show FileHolds start seen false disk.tmp
        rw [show disk.tmp = some (bytes text) from hTmp]
        exact fileHolds_whole hWhole

theorem persisted_shutdown (h : Persisted start seen torn ⟨some e, c, s, disk⟩) (m : ShutdownMove) :
    Persisted start seen (Life.tornAfter ⟨some e, c, s, disk⟩ torn (.shutdown m))
      (Life.shutdownStep ⟨some e, c, s, disk⟩ e m) := by
  have hSound := h.shutdown
  have hIn : e ∈ seen := h.passed e rfl
  rcases m with ts | _ | ok | n | ok
  · rcases s with _ | d | ⟨text, inPlace⟩ | _
    · exact ⟨h.passed, h.checkpoint, ⟨e, rfl, from_beginDump hIn ts⟩, h.file, nofun⟩
    · exact h
    · exact h
    · exact h
  · rcases s with _ | d | ⟨text, inPlace⟩ | _
    · exact h
    · obtain ⟨b, hSame, hFrom⟩ := hSound
      obtain rfl : e = b := Option.some.inj hSame
      exact ⟨h.passed, h.checkpoint, ⟨_, rfl, from_read hIn hFrom⟩, h.file, nofun⟩
    · exact h
    · exact h
  · rcases s with _ | ⟨ts, parts, _ | ⟨name, todo⟩⟩ | ⟨text, inPlace⟩ | _
    · rcases ok with _ | _ <;> exact h
    · obtain ⟨_, -, hFrom⟩ := hSound
      rcases ok with _ | _
      · exact ⟨h.passed, h.checkpoint, trivial, h.file, nofun⟩
      · -- the file is empty now
        exact ⟨h.passed, h.checkpoint, ⟨wholeDump_of_from hFrom, fun _ => rfl⟩,
          fileHolds_cut (wholeDump_of_from hFrom) 0, nofun⟩
    · rcases ok with _ | _ <;> exact h
    · rcases ok with _ | _ <;> exact h
    · rcases ok with _ | _ <;> exact h
  · rcases s with _ | d | ⟨text, _ | _⟩ | _
    · exact h
    · exact h
    · exact h
    · obtain rfl : torn = true := hSound.2 rfl
      exact ⟨h.passed, h.checkpoint, hSound, fileHolds_cut hSound.1 n, nofun⟩
    · exact h
  · rcases s with _ | d | ⟨text, _ | _⟩ | _
    · rcases ok with _ | _ <;> exact h
    · rcases ok with _ | _ <;> exact h
    · rcases ok with _ | _ <;> exact ⟨h.passed, h.checkpoint, trivial, h.file, nofun⟩
    · rcases ok with _ | _
      · exact ⟨h.passed, h.checkpoint, trivial, h.file, nofun⟩
      · exact ⟨h.passed, h.checkpoint, trivial, fileHolds_whole hSound.1, nofun⟩
    · rcases ok with _ | _ <;> exact h

/-- Work leaves the names of the databases while a dump is under way. -/
theorem persisted_work (h : Persisted start seen torn ⟨some e, c, s, disk⟩) {e' : Engine} (hIn : e' ∈ seen)
    (hLocked : (c.isDumping || s.isDumping) = true → e'.databases.keys = e.databases.keys) :
    Persisted start seen torn ⟨some e', c, s, disk⟩ where
  passed := fun b hb => Option.some.inj hb ▸ hIn
  checkpoint := by
    have hSound := h.checkpoint
    rcases c with _ | d | text | _
    · trivial
    · obtain ⟨b, hSame, hFrom⟩ := hSound
      obtain rfl : e = b := Option.some.inj hSame
      exact ⟨e', rfl, hFrom.names, hFrom.taken, by rw [hLocked rfl]; exact hFrom.there⟩
    · exact hSound
    · exact hSound
  shutdown := by
    have hSound := h.shutdown
    rcases s with _ | d | ⟨text, inPlace⟩ | _
    · trivial
    · obtain ⟨b, hSame, hFrom⟩ := hSound
      obtain rfl : e = b := Option.some.inj hSame
      exact ⟨e', rfl, hFrom.names, hFrom.taken, by rw [hLocked (Bool.or_true _)]; exact hFrom.there⟩
    · exact hSound
    · trivial
  file := h.file
  ended := nofun

theorem tornAfter_waiting (engine : Option Engine) (m : LifeMove) :
    (⟨engine, .waiting, .waiting, disk⟩ : Life).tornAfter torn m = torn := by
  rcases m with e | (ts | _ | ok | n | ok | (_ | _)) | (ts | _ | (_ | _) | n | (_ | _)) | _ | now <;> rfl

theorem persisted_step {l : Life} (cfg : Config) (h : Persisted start seen torn l) (m : LifeMove) :
    Persisted start (seen ++ (l.step cfg m).engine.toList) (l.tornAfter torn m) (l.step cfg m) := by
  have hLeft : seen ⊆ seen ++ (l.step cfg m).engine.toList := List.subset_append_left ..
  obtain ⟨engine, c, s, disk⟩ := l
  rcases engine with _ | e
  · -- no process: nothing moves but a start
    obtain ⟨hWaiting, hWaiting'⟩ := h.ended rfl
    obtain rfl : c = .waiting := hWaiting
    obtain rfl : s = .waiting := hWaiting'
    rw [tornAfter_waiting]
    rcases m with e' | m | m | _ | now
    · exact h.mono hLeft
    · exact h.mono hLeft
    · exact h.mono hLeft
    · exact h.mono hLeft
    · exact ⟨fun e he => List.mem_append_right _ (Option.mem_toList.2 he), trivial, trivial, h.file.mono hLeft,
        fun _ => ⟨rfl, rfl⟩⟩
  · rcases m with e' | m | m | _ | now
    · have hKeeps : (⟨some e, c, s, disk⟩ : Life).step cfg (.work e') =
          if (c.isDumping || s.isDumping) && e'.databases.keys ≠ e.databases.keys then ⟨some e, c, s, disk⟩
          else ⟨some e', c, s, disk⟩ := rfl
      by_cases hWaits : ((c.isDumping || s.isDumping) && decide (e'.databases.keys ≠ e.databases.keys)) = true
      · rw [hKeeps, if_pos hWaits]
        exact h.mono (List.subset_append_left ..)
      · rw [hKeeps, if_neg hWaits]
        refine persisted_work (h.mono (List.subset_append_left ..)) ?_ fun hLocked => ?_
        · exact List.mem_append_right _ (List.mem_singleton_self _)
        · rw [hLocked, Bool.true_and, decide_eq_true_eq, not_not] at hWaits
          exact hWaits
    · exact (persisted_checkpoint h m).mono hLeft
    · exact (persisted_shutdown h m).mono hLeft
    · exact ⟨nofun, trivial, trivial, h.file.mono hLeft, fun _ => ⟨rfl, rfl⟩⟩
    · exact h.mono hLeft

end Steps

-- ---------------------------------------------------------------------------
-- Runs
-- ---------------------------------------------------------------------------

/-- No process is running. -/
def Life.off (disk : Disk) : Life := ⟨none, .waiting, .waiting, disk⟩

/-- The life after moves from there. -/
def Life.after (cfg : Config) (disk : Disk) (moves : List LifeMove) : Life :=
  Trace.run (Life.step cfg) (Life.off disk) moves

def historyOf (cfg : Config) (disk : Disk) (moves : List LifeMove) : History :=
  Trace.run (History.step cfg) ⟨Life.off disk, [], false⟩ moves

theorem historyOf_append (cfg : Config) (disk : Disk) (moves : List LifeMove) (m : LifeMove) :
    historyOf cfg disk (moves ++ [m]) = (historyOf cfg disk moves).step cfg m := Trace.run_append ..

theorem life_historyOf (cfg : Config) (disk : Disk) (moves : List LifeMove) :
    (historyOf cfg disk moves).life = Life.after cfg disk moves :=
  have hStep : ∀ (l : Life) (h : History) (m : LifeMove), h.life = l → (h.step cfg m).life = l.step cfg m :=
    fun l h m hSame => by rw [← hSame]; rfl
  Trace.related_run_all (R := fun (l : Life) (h : History) => h.life = l) hStep rfl moves

theorem readToString_bytes (text : Str) : readToString (bytes text) = some text := by
  unfold readToString
  rw [fromUtf8Lossy_bytes, if_pos rfl]

/-- **What the file holds.** Over any lives of the server, with its sessions at work, a
checkpoint and a shutdown going on, writes that fail and processes that end anywhere:
`runalexdb.sql` holds what it held at the beginning or a whole dump, in which each
database is as the server had it at some moment; only a shutdown that was cut while it
wrote the file leaves a beginning of such a dump, until a checkpoint is renamed to it.
So a process that is started outside of that has what a restore makes of a whole
dump. -/
theorem persisted_run (cfg : Config) (disk : Disk) (moves : List LifeMove) :
    (historyOf cfg disk moves).life = Life.after cfg disk moves ∧
    (∀ e ∈ (historyOf cfg disk moves).seen,
      ∃ before, before <+: moves ∧ (Life.after cfg disk before).engine = some e) ∧
    FileHolds disk.file (historyOf cfg disk moves).seen (historyOf cfg disk moves).torn
      (Life.after cfg disk moves).disk.file ∧
    ((historyOf cfg disk moves).torn = false → (Life.after cfg disk moves).disk.file ≠ disk.file →
      ∃ text, WholeDump (historyOf cfg disk moves).seen text ∧
        ∀ now, Engine.new cfg now (Life.after cfg disk moves).disk.file =
          ((restoreSql now text).exec (Engine.fresh cfg.rootPassword)).1.map fun _ =>
            ((restoreSql now text).exec (Engine.fresh cfg.rootPassword)).2) := by
  have hLife := life_historyOf cfg disk moves
  have hStart : Persisted disk.file [] false (Life.off disk) :=
    ⟨nofun, trivial, trivial, .inl rfl, fun _ => ⟨rfl, rfl⟩⟩
  have hPersisted : Persisted disk.file (historyOf cfg disk moves).seen (historyOf cfg disk moves).torn
      (historyOf cfg disk moves).life :=
    Trace.invariant_run_all (I := fun h : History => Persisted disk.file h.seen h.torn h.life)
      (s := ⟨Life.off disk, [], false⟩) (fun h m hHolds => persisted_step cfg hHolds m) hStart moves
  have hFile := hPersisted.file
  rw [hLife] at hFile
  refine ⟨hLife, ?_, hFile, fun hTorn hChanged => ?_⟩
  · clear hPersisted hFile hLife
    induction moves using List.reverseRecOn with
    | nil => exact fun e he => absurd he List.not_mem_nil
    | append_singleton moves m ih =>
      intro e he
      rw [historyOf_append] at he
      rcases List.mem_append.1 he with he | he
      · obtain ⟨before, hPrefix, hEngine⟩ := ih e he
        exact ⟨before, hPrefix.trans (List.prefix_append _ _), hEngine⟩
      · refine ⟨moves ++ [m], List.prefix_rfl, ?_⟩
        have hEngine := Option.mem_toList.1 he
        rw [life_historyOf] at hEngine
        unfold Life.after
        rw [Trace.run_append]
        exact hEngine
  · unfold FileHolds at hFile
    rw [hTorn, if_neg Bool.false_ne_true] at hFile
    obtain ⟨text, hWhole, hText⟩ := hFile.resolve_left hChanged
    refine ⟨text, hWhole, fun now => ?_⟩
    rw [hText]
    unfold Engine.new
    rw [Option.bind_some, readToString_bytes]

end Checkpoints

end RunAlexDb
