import SpectraGQL.Data.FileSystem
import SpectraGQL.Http
import SpectraGQL.Interaction.Actors

/-! # The configuration file (`core/config_store.rs`, `FileConfigStore`)

A save writes a temporary file and renames it over the configuration; a load opens the
configuration and reads it to its end.  Any number of saves and loads run at once, each a system
call at a time (`FileConfigStore.next`); a call may fail, and may move fewer bytes than it was
asked to.

All saves share one temporary file.  As long as no save opens it while another one has it open
(`Alone`), the file is a register that each save sets at its rename (`Sound.live`), and loads and
saves are atomic.  Two saves that overlap there can publish half a configuration.
-/

namespace SpectraGQL.Core

open SpectraGQL.Http
open Interaction Data

/-! ## Paths -/

/-- A path without redundant parts: its last component, and what comes before it, up to the last slash. -/
structure Path where
  before : String
  name : String
  deriving DecidableEq, Repr

namespace Path

def display (path : Path) : String := path.before ++ path.name

/-- `Path::file_name`: a root has none, and neither has a directory under the name it has for itself
    or for the one it is in. -/
def fileName (path : Path) : Option String :=
  if path.name = "" ∨ path.name = "." ∨ path.name = ".." then none else some path.name

/-- `Path::parent`. -/
def parent (path : Path) : Option String :=
  if path.name = "" then none
  else if path.before = "/" then some "/"
  else some (String.ofList path.before.toList.dropLast)

/-- A file name before and after its last dot; a dot at its beginning does not count. -/
def splitAtDot (name : List Char) : List Char × Option (List Char) :=
  match name.reverse.dropWhile fun char => char ≠ '.' with
  | _ :: stem => if stem = [] then (name, none) else (stem.reverse, some (name.drop (stem.length + 1)))
  | [] => (name, none)

/-- `Path::extension`. -/
def extension (path : Path) : Option String :=
  path.fileName.bind fun name => (splitAtDot name.toList).2.map String.ofList

/-- `Path::with_extension`, for an extension that is not empty. -/
def withExtension (path : Path) (extension : String) : Path :=
  match path.fileName with
  | some name => { path with name := String.ofList (splitAtDot name.toList).1 ++ "." ++ extension }
  | none => path

theorem splitAtDot_cases (name : List Char) :
    splitAtDot name = (name, none) ∨
      ∃ stem extension, splitAtDot name = (stem, some extension) ∧ name = stem ++ '.' :: extension := by
  have parts := List.takeWhile_append_dropWhile (p := fun char => decide (char ≠ '.')) (l := name.reverse)
  unfold splitAtDot
  split
  · rename_i dot stem found
    split
    · exact .inl rfl
    · -- what the search stops at is the last dot
      have isDot : dot = '.' := by
        have head := List.head?_dropWhile_not (fun char => decide (char ≠ '.')) name.reverse
        rw [found] at head
        simpa using head
      rw [found, isDot] at parts
      have whole := congrArg List.reverse parts
      rw [List.reverse_append, List.reverse_cons, List.append_assoc, List.reverse_reverse] at whole
      refine .inr ⟨stem.reverse, _, rfl, ?_⟩
      have rest := congrArg (List.drop (stem.length + 1)) whole
      rw [List.singleton_append, List.append_cons, List.drop_left' (by simp)] at rest
      rw [← rest]
      exact whole.symm
  · exact .inl rfl

/-- A path is its own variant exactly if there is nothing to add the extension to, or it is there. -/
theorem withExtension_eq_self_iff {path : Path} {extension : String} :
    path.withExtension extension = path ↔ path.fileName = none ∨ path.extension = some extension := by
  unfold withExtension Path.extension
  cases isName : path.fileName with
  | none => simp
  | some name =>
    obtain ⟨before, last⟩ := path
    obtain rfl : last = name := by
      unfold fileName at isName
      split at isName
      · cases isName
      · exact Option.some.inj isName
    have sameName :
        ({ before := before, name := String.ofList (splitAtDot last.toList).1 ++ "." ++ extension } : Path) =
          ⟨before, last⟩ ↔ (splitAtDot last.toList).1 ++ '.' :: extension.toList = last.toList := by
      simp [← String.toList_inj]
    rw [sameName, Option.bind_some]
    rcases splitAtDot_cases last.toList with none | ⟨stem, found, isSplit, whole⟩
    · simp [none]
    · have isExtension : some (String.ofList found) = some extension ↔ extension.toList = found := by
        rw [Option.some_inj, ← String.toList_inj, String.toList_ofList, eq_comm]
      rw [isSplit, whole, Option.map_some, isExtension]
      simp

example : Path.withExtension ⟨"/etc/spectra/", "config.v2.toml"⟩ "tmp" = ⟨"/etc/spectra/", "config.v2.tmp"⟩ := by
  decide

example : Path.withExtension ⟨"", ".spectra"⟩ "tmp" = ⟨"", ".spectra.tmp"⟩ := by decide

end Path

/-! ## The store -/

structure FileConfigStore where
  path : Path
  deriving DecidableEq, Repr

inductive StoreCall where
  | save (content : String)
  | load
  deriving DecidableEq, Repr

inductive StoreReply where
  | saved
  | loaded (content : Option String)
  | failed (context : String)
  deriving DecidableEq, Repr

abbrev Files := FileSystem Path UInt8

/-- What a call has still to do, with its local variables. -/
inductive StoreStage where
  | idle
  | creatingParent (content parent : String)
  | creating (content : String)
  | writing (content : String) (handle : FileHandle) (rest : Bytes)
  | replacing (content : String)
  | checking
  | opening
  | reading (handle : FileHandle) (read : Bytes)
  | done (reply : StoreReply)
  | returned (reply : StoreReply)
  deriving DecidableEq, Repr

inductive StoreAction where
  | begins
  | works
  | creates
  | renames
  | returns (reply : StoreReply)
  deriving DecidableEq, Repr

/-- How a system call ends: it fails without an effect, or it does what it is for; a read and a
    write then move one byte and up to `count` more. -/
inductive Outcome where
  | moves (count : Nat)
  | fails
  deriving DecidableEq, Repr

namespace FileConfigStore

variable (store : FileConfigStore)

def tmpPath : Path := store.path.withExtension "tmp"

def parentContext (parent : String) : String := "Failed to create parent directory '" ++ parent ++ "'"

def writeContext : String := "Failed to write temporary config to '" ++ store.tmpPath.display ++ "'"

def renameContext : String := "Failed to replace config file at '" ++ store.path.display ++ "'"

def readContext : String := "Failed to read config file from '" ++ store.path.display ++ "'"

/-- A save creates the parent directory, if the path has one. -/
def beginSave (content : String) : StoreStage :=
  match store.path.parent with
  | some parent => if parent = "" then .creating content else .creatingParent content parent
  | none => .creating content

/-- The end of `read_to_string`. -/
def finishRead (read : Bytes) : StoreReply :=
  match fromUtf8 read with
  | some content => .loaded (some content)
  | none => .failed store.readContext

/-- One system call of `save_config` or `load_config`, and what the caller does with its result. -/
def next (call : StoreCall) (outcome : Outcome) (files : Files) :
    StoreStage → Option (StoreAction × Files × StoreStage)
  | .idle =>
    match call with
    | .save content => some (.begins, files, store.beginSave content)
    | .load => some (.begins, files, .checking)
  | .creatingParent content parent =>
    match outcome with
    | .moves _ => some (.works, files, .creating content)
    | .fails => some (.works, files, .done (.failed (parentContext parent)))
  | .creating content =>
    match outcome with
    | .moves _ =>
      let (created, handle) := files.create store.tmpPath
      some (.creates, created, .writing content handle (asBytes content))
    | .fails => some (.works, files, .done (.failed store.writeContext))
  | .writing content handle rest =>
    -- `write_all` goes on as long as something is left
    if rest = [] then some (.works, files, .replacing content)
    else
      match outcome with
      | .moves count =>
        let (written, moved) := files.write 0 handle (rest.take (count + 1))
        some (.works, written, .writing content moved (rest.drop (count + 1)))
      | .fails => some (.works, files, .done (.failed store.writeContext))
  | .replacing _ =>
    match outcome with
    | .moves _ =>
      match files.rename store.tmpPath store.path with
      | some renamed => some (.renames, renamed, .done .saved)
      | none => some (.works, files, .done (.failed store.renameContext))
    | .fails => some (.works, files, .done (.failed store.renameContext))
  | .checking =>
    if files.names store.path = none then some (.works, files, .done (.loaded none))
    else some (.works, files, .opening)
  | .opening =>
    match outcome with
    | .moves _ =>
      match files.openRead store.path with
      | some handle => some (.works, files, .reading handle [])
      | none => some (.works, files, .done (.failed store.readContext))
    | .fails => some (.works, files, .done (.failed store.readContext))
  | .reading handle read =>
    match outcome with
    | .moves count =>
      let chunk := files.read handle (count + 1)
      if chunk = [] then some (.works, files, .done (store.finishRead read))
      else some (.works, files, .reading { handle with offset := handle.offset + chunk.length } (read ++ chunk))
    | .fails => some (.works, files, .done (.failed store.readContext))
  | .done reply => some (.returns reply, files, .returned reply)
  | .returned _ => none

/-- The calls on one store. -/
def actors {ι : Type} (calls : ι → StoreCall) : Actors ι Outcome Files StoreStage StoreAction :=
  ⟨fun actor outcome files stage => store.next (calls actor) outcome files stage⟩

end FileConfigStore

/-! ## Runs -/

abbrev StoreConfig (ι : Type) := Actors.Config ι Files StoreStage StoreAction

/-- Between the opening of the temporary file and the rename, or the failure. -/
def StoreStage.HasTemporary : StoreStage → Prop
  | .writing _ _ _ | .replacing _ => True
  | _ => False

instance : DecidablePred StoreStage.HasTemporary
  | .writing _ _ _ | .replacing _ => .isTrue trivial
  | .idle | .creatingParent _ _ | .creating _ | .checking | .opening | .reading _ _ | .done _ | .returned _ =>
    .isFalse id

/-- No save opens the temporary file while another one has it open. -/
def Alone {ι : Type} (config : StoreConfig ι) (_ : ι) (action : StoreAction) : Prop :=
  action = .creates → ∀ other, ¬ (config.own other).HasTemporary

section Register

variable {ι : Type} (calls : ι → StoreCall)

def StoreCall.bytes : StoreCall → Option Bytes
  | .save content => some (asBytes content)
  | .load => none

/-- The saves in the order of their renames. -/
def savers (history : List (ι × StoreAction)) : List ι :=
  history.filterMap fun event => if event.2 = .renames then some event.1 else none

/-- The file as a register that each save sets with its rename. -/
def register (initial : Option Bytes) (history : List (ι × StoreAction)) : Option Bytes :=
  match (savers history).getLast? with
  | some saver => (calls saver).bytes
  | none => initial

/-- What the register has held so far. -/
def Held (initial : Option Bytes) (history : List (ι × StoreAction)) (content : Option Bytes) : Prop :=
  content = initial ∨ ∃ saver ∈ savers history, content = (calls saver).bytes

variable {calls} {initial : Option Bytes} {history : List (ι × StoreAction)} {actor : ι}

theorem savers_concat (history : List (ι × StoreAction)) (actor : ι) (action : StoreAction) :
    savers (history ++ [(actor, action)]) = savers history ++ if action = .renames then [actor] else [] := by
  unfold savers
  rw [List.filterMap_append]
  split
  · rename_i renames
    simp [renames]
  · rename_i other
    simp [other]

theorem register_renames : register calls initial (history ++ [(actor, .renames)]) = (calls actor).bytes := by
  simp [register, savers_concat]

theorem register_of_ne {action : StoreAction} (other : action ≠ .renames) :
    register calls initial (history ++ [(actor, action)]) = register calls initial history := by
  simp [register, savers_concat, other]

theorem held_register (calls : ι → StoreCall) (initial : Option Bytes) (history : List (ι × StoreAction)) :
    Held calls initial history (register calls initial history) := by
  unfold register
  split
  · rename_i saver isLast
    exact .inr ⟨saver, List.mem_of_getLast? isLast, rfl⟩
  · exact .inl rfl

theorem Held.later {content : Option Bytes} (held : Held calls initial history content) (event : ι × StoreAction) :
    Held calls initial (history ++ [event]) content := by
  rcases held with same | ⟨saver, member, same⟩
  · exact .inl same
  · refine .inr ⟨saver, ?_, same⟩
    rw [savers_concat]
    exact List.mem_append_left _ member

end Register

/-! ## What holds of the file -/

section Soundness

variable {ι : Type} (store : FileConfigStore) (calls : ι → StoreCall) (initial : Option Bytes)

/-- A reply is right: what a load found has been in the register, and a save has set it. -/
def ReplyHolds (history : List (ι × StoreAction)) (actor : ι) : StoreReply → Prop
  | .saved => actor ∈ savers history
  | .loaded content => Held calls initial history (content.map asBytes)
  | .failed _ => True

/-- What a call knows of the files at a stage. -/
def StageHolds (files : Files) (history : List (ι × StoreAction)) (actor : ι) : StoreStage → Prop
  | .idle | .checking | .opening => True
  | .creatingParent content _ | .creating content => calls actor = .save content
  | .writing content handle rest =>
    calls actor = .save content ∧ files.names store.tmpPath = some handle.inode ∧
      handle.offset = (files.contents handle.inode).length ∧
      files.contents handle.inode ++ rest = asBytes content
  | .replacing content =>
    calls actor = .save content ∧
      ∃ inode, files.names store.tmpPath = some inode ∧ files.contents inode = asBytes content
  | .reading handle read =>
    handle.inode < files.unused ∧ files.names store.tmpPath ≠ some handle.inode ∧
      read = (files.contents handle.inode).take handle.offset ∧
      Held calls initial history (some (files.contents handle.inode))
  | .done reply | .returned reply => ReplyHolds calls initial history actor reply

/-- The file is the register, one save at most has the temporary file open, and every call is right
    about what it knows. -/
structure Sound (config : StoreConfig ι) : Prop where
  live : config.shared.lookup store.path = register calls initial config.history
  alone : ∀ first second, (config.own first).HasTemporary → (config.own second).HasTemporary → first = second
  stages : ∀ actor, StageHolds store calls initial config.shared config.history actor (config.own actor)
  saves : ∀ saver ∈ savers config.history, ∃ content, calls saver = .save content

/-- Nothing changes but the temporary file, which is made anew, extended or taken away. -/
structure Frame (files files' : Files) : Prop where
  unused : files.unused ≤ files'.unused
  contents : ∀ inode < files.unused, files.names store.tmpPath ≠ some inode →
    files'.contents inode = files.contents inode ∧ files'.names store.tmpPath ≠ some inode

variable {store calls initial}

theorem Frame.refl (files : Files) : Frame store files files where
  unused := Nat.le_refl _
  contents := fun _ _ notTemporary => ⟨rfl, notTemporary⟩

theorem ReplyHolds.later {history : List (ι × StoreAction)} {actor : ι} {reply : StoreReply}
    (holds : ReplyHolds calls initial history actor reply) (event : ι × StoreAction) :
    ReplyHolds calls initial (history ++ [event]) actor reply := by
  cases reply with
  | saved =>
    show actor ∈ savers (history ++ [event])
    rw [savers_concat]
    exact List.mem_append_left _ holds
  | loaded content => exact Held.later holds event
  | failed context => trivial

/-- What a call without the temporary file knows stays true whatever happens to that file. -/
theorem StageHolds.frame {files files' : Files} {history : List (ι × StoreAction)} {actor : ι} {stage : StoreStage}
    (holds : StageHolds store calls initial files history actor stage) (frame : Frame store files files')
    (without : ¬ stage.HasTemporary) (event : ι × StoreAction) :
    StageHolds store calls initial files' (history ++ [event]) actor stage := by
  cases stage with
  | idle | checking | opening => trivial
  | creatingParent _ _ | creating _ => exact holds
  | writing _ _ _ | replacing _ => exact absurd trivial without
  | reading handle read =>
    obtain ⟨used, notTemporary, isRead, held⟩ := holds
    obtain ⟨same, stillNot⟩ := frame.contents handle.inode used notTemporary
    refine ⟨Nat.lt_of_lt_of_le used frame.unused, stillNot, ?_, ?_⟩
    · rw [same]
      exact isRead
    · rw [same]
      exact held.later event
  | done reply | returned reply => exact ReplyHolds.later holds event

/-- And what one knows that has it, when the files stay as they are. -/
theorem StageHolds.later {files : Files} {history : List (ι × StoreAction)} {actor : ι} {stage : StoreStage}
    (holds : StageHolds store calls initial files history actor stage) (event : ι × StoreAction) :
    StageHolds store calls initial files (history ++ [event]) actor stage := by
  cases stage with
  | writing _ _ _ | replacing _ => exact holds
  | idle | checking | opening | creatingParent _ _ | creating _ | reading _ _ | done _ | returned _ =>
    exact holds.frame (.refl files) (fun has => has) event

/-! ### Steps -/

theorem frame_create (files : Files) : Frame store files (files.create store.tmpPath).1 where
  unused := files.unused_le_create store.tmpPath
  contents := by
    intro inode used notTemporary
    have different := FileSystem.inode_create_ne used notTemporary
    refine ⟨FileSystem.contents_create_of_ne different, ?_⟩
    rw [FileSystem.names_create_self]
    exact fun same => different (Option.some.inj same).symm

theorem frame_write {files : Files} {handle : FileHandle} (temporary : files.names store.tmpPath = some handle.inode)
    (bytes : Bytes) : Frame store files (files.write 0 handle bytes).1 where
  unused := Nat.le_refl _
  contents := by
    intro inode used notTemporary
    refine ⟨FileSystem.contents_write_of_ne 0 bytes ?_, notTemporary⟩
    rintro rfl
    exact notTemporary temporary

theorem frame_rename (apart : store.tmpPath ≠ store.path) {files files' : Files}
    (done : files.rename store.tmpPath store.path = some files') : Frame store files files' := by
  obtain ⟨inode, named, names, contents, unused⟩ := FileSystem.rename_eq_some done
  refine ⟨Nat.le_of_eq unused.symm, fun other used notTemporary => ⟨by rw [contents], ?_⟩⟩
  rw [names]
  simp [FileSystem.renamed, apart]

/-- The configuration is not the temporary file. -/
theorem Frame.lookup (apart : store.tmpPath ≠ store.path) {files files' : Files} (frame : Frame store files files')
    (names : files'.names store.path = files.names store.path) :
    files'.lookup store.path = files.lookup store.path := by
  unfold FileSystem.lookup
  rw [names]
  cases named : files.names store.path with
  | none => rfl
  | some inode =>
    have notTemporary : files.names store.tmpPath ≠ some inode := fun same => apart (files.single same named)
    exact congrArg some (frame.contents inode (files.used named) notTemporary).1

namespace Sound

variable [DecidableEq ι] {config : StoreConfig ι} {actor : ι}

/-- A step is sound if the others do not see it, or do not have the temporary file. -/
theorem act (sound : Sound store calls initial config) {result : StoreAction × Files × StoreStage}
    (frame : Frame store config.shared result.2.1)
    (unseen : result.2.1 = config.shared ∨ ∀ other, other ≠ actor → ¬ (config.own other).HasTemporary)
    (live : result.2.1.lookup store.path = register calls initial (config.history ++ [(actor, result.1)]))
    (has : result.2.2.HasTemporary → ∀ other, other ≠ actor → ¬ (config.own other).HasTemporary)
    (own : StageHolds store calls initial result.2.1 (config.history ++ [(actor, result.1)]) actor result.2.2)
    (saves : result.1 = .renames → ∃ content, calls actor = .save content) :
    Sound store calls initial (config.act actor result) where
  live := live
  alone := by
    intro first second isFirst isSecond
    by_cases mine : first = actor
    · by_cases mine' : second = actor
      · rw [mine, mine']
      · subst mine
        rw [Actors.Config.act_own_self] at isFirst
        rw [Actors.Config.act_own_of_ne _ _ _ mine'] at isSecond
        exact absurd isSecond (has isFirst second mine')
    · rw [Actors.Config.act_own_of_ne _ _ _ mine] at isFirst
      by_cases mine' : second = actor
      · subst mine'
        rw [Actors.Config.act_own_self] at isSecond
        exact absurd isFirst (has isSecond first mine)
      · rw [Actors.Config.act_own_of_ne _ _ _ mine'] at isSecond
        exact sound.alone first second isFirst isSecond
  stages := by
    intro other
    by_cases mine : other = actor
    · subst mine
      rw [Actors.Config.act_own_self]
      exact own
    · rw [Actors.Config.act_own_of_ne _ _ _ mine]
      rcases unseen with same | nobody
      · rw [Actors.Config.act_shared, same]
        exact (sound.stages other).later _
      · exact (sound.stages other).frame frame (nobody other mine) _
  saves := by
    intro saver member
    rw [Actors.Config.act_history, savers_concat] at member
    cases List.mem_append.mp member with
    | inl earlier => exact sound.saves saver earlier
    | inr isLast =>
      split at isLast
      · rename_i isRename
        rw [List.mem_singleton.mp isLast]
        exact saves isRename
      · cases isLast

/-- A step that leaves the files as they are, and does not open the temporary file. -/
theorem quiet (sound : Sound store calls initial config) {action : StoreAction} {stage : StoreStage}
    (other : action ≠ .renames) (has : stage.HasTemporary → (config.own actor).HasTemporary)
    (own : StageHolds store calls initial config.shared (config.history ++ [(actor, action)]) actor stage) :
    Sound store calls initial (config.act actor (action, config.shared, stage)) := by
  refine sound.act (.refl _) (.inl rfl) ?_ ?_ own (fun isRename => absurd isRename other)
  · rw [register_of_ne other]
    exact sound.live
  · intro isTemporary other different holds
    exact different (sound.alone other actor holds (has isTemporary))

/-- A failed system call has no effect. -/
theorem fail (sound : Sound store calls initial config) (context : String) :
    Sound store calls initial (config.act actor (.works, config.shared, .done (.failed context))) :=
  sound.quiet (by simp) (fun has => has.elim) trivial

/-- The temporary file is opened: nobody else has it, and nobody reads it. -/
theorem create (sound : Sound store calls initial config) (apart : store.tmpPath ≠ store.path)
    (isOk : Alone config actor .creates) {content : String} (isCall : calls actor = .save content) :
    Sound store calls initial (config.act actor (.creates, (config.shared.create store.tmpPath).1,
      .writing content (config.shared.create store.tmpPath).2 (asBytes content))) := by
  have nobody := isOk rfl
  refine sound.act (frame_create _) (.inr fun other _ => nobody other) ?_ (fun _ other _ => nobody other) ?_
    (by simp)
  · rw [register_of_ne (by simp), (frame_create _).lookup apart (FileSystem.names_create_of_ne (Ne.symm apart))]
    exact sound.live
  · exact ⟨isCall, FileSystem.names_create_self _ _, by simp, by simp⟩

/-- A part of what is left is appended to it. -/
theorem write (sound : Sound store calls initial config) (apart : store.tmpPath ≠ store.path) {content : String}
    {handle : FileHandle} {rest : Bytes} (own : config.own actor = .writing content handle rest) (count : Nat) :
    Sound store calls initial (config.act actor (.works, (config.shared.write 0 handle (rest.take count)).1,
      .writing content (config.shared.write 0 handle (rest.take count)).2 (rest.drop count))) := by
  have knows := sound.stages actor
  rw [own] at knows
  obtain ⟨isCall, named, atEnd, whole⟩ := knows
  have frame := frame_write named (rest.take count)
  have nobody (other : ι) (different : other ≠ actor) : ¬ (config.own other).HasTemporary := fun has =>
    different (sound.alone other actor has (by rw [own]; trivial))
  have appended := FileSystem.contents_write_self 0 (rest.take count) atEnd
  refine sound.act frame (.inr nobody) ?_ (fun _ => nobody) ⟨isCall, named, ?_, ?_⟩ (by simp)
  · rw [register_of_ne (by simp), frame.lookup apart rfl]
    exact sound.live
  · show handle.offset + (rest.take count).length =
      ((config.shared.write 0 handle (rest.take count)).1.contents handle.inode).length
    rw [appended, List.length_append, atEnd]
  · show (config.shared.write 0 handle (rest.take count)).1.contents handle.inode ++ _ = _
    rw [appended, List.append_assoc, List.take_append_drop]
    exact whole

/-- What has been written becomes the configuration, all of it at once. -/
theorem rename (sound : Sound store calls initial config) (apart : store.tmpPath ≠ store.path) {content : String}
    (own : config.own actor = .replacing content) {files : Files}
    (done : config.shared.rename store.tmpPath store.path = some files) :
    Sound store calls initial (config.act actor (.renames, files, .done .saved)) := by
  have knows := sound.stages actor
  rw [own] at knows
  obtain ⟨isCall, inode, named, whole⟩ := knows
  have nobody (other : ι) (different : other ≠ actor) : ¬ (config.own other).HasTemporary := fun has =>
    different (sound.alone other actor has (by rw [own]; trivial))
  refine sound.act (frame_rename apart done) (.inr nobody) ?_ (fun has => has.elim) ?_ fun _ => ⟨content, isCall⟩
  · obtain ⟨moved, isNamed, names, contents, _⟩ := FileSystem.rename_eq_some done
    obtain rfl : inode = moved := Option.some.inj (named.symm.trans isNamed)
    have isLive : files.lookup store.path = some (files.contents inode) := by
      rw [FileSystem.lookup, names]
      simp [FileSystem.renamed]
    rw [register_renames, isCall, isLive, contents, whole]
    rfl
  · show actor ∈ savers (config.history ++ [(actor, .renames)])
    rw [savers_concat]
    simp

/-- The next part of the open file, or its end. -/
theorem read (sound : Sound store calls initial config) {handle : FileHandle} {sofar : Bytes}
    (own : config.own actor = .reading handle sofar) (count : Nat) {result : StoreAction × Files × StoreStage}
    (moves : store.next (calls actor) (.moves count) config.shared (.reading handle sofar) = some result) :
    Sound store calls initial (config.act actor result) := by
  have knows := sound.stages actor
  rw [own] at knows
  obtain ⟨used, notTemporary, isRead, held⟩ := knows
  simp only [FileConfigStore.next] at moves
  split at moves
  · rename_i atEnd
    cases moves
    refine sound.quiet (by simp) (fun has => has.elim) ?_
    -- at the end of the file all of it has been read
    rw [List.take_of_length_le (FileSystem.length_le_of_read_nil atEnd)] at isRead
    unfold FileConfigStore.finishRead
    split
    · rename_i content decoded
      have bytes := asBytes_of_fromUtf8 decoded
      show Held calls initial _ (some (asBytes content))
      rw [bytes, isRead]
      exact held.later _
    · trivial
  · cases moves
    refine sound.quiet (by simp) (fun has => has.elim) ⟨used, notTemporary, ?_, held.later _⟩
    rw [isRead]
    exact config.shared.take_append_read handle (count + 1)

/-- A call begins. -/
theorem begin (sound : Sound store calls initial config) {outcome : Outcome}
    {result : StoreAction × Files × StoreStage}
    (moves : store.next (calls actor) outcome config.shared .idle = some result) :
    Sound store calls initial (config.act actor result) := by
  cases isCall : calls actor with
  | save content =>
    rw [isCall] at moves
    cases moves
    refine sound.quiet (by simp) ?_ ?_
    · unfold FileConfigStore.beginSave
      split
      · split <;> exact fun has => has.elim
      · exact fun has => has.elim
    · unfold FileConfigStore.beginSave
      split
      · split <;> exact isCall
      · exact isCall
  | load =>
    rw [isCall] at moves
    cases moves
    exact sound.quiet (by simp) (fun has => has.elim) trivial

/-- A load finds that there is no file, or goes on to open it. -/
theorem check (sound : Sound store calls initial config) {call : StoreCall} {outcome : Outcome}
    {result : StoreAction × Files × StoreStage}
    (moves : store.next call outcome config.shared .checking = some result) :
    Sound store calls initial (config.act actor result) := by
  simp only [FileConfigStore.next] at moves
  split at moves
  · rename_i absent
    cases moves
    refine sound.quiet (by simp) (fun has => has.elim) ?_
    -- nothing has the name, so nothing is in the register
    have empty : config.shared.lookup store.path = none := by rw [FileSystem.lookup, absent]; rfl
    have held := held_register calls initial config.history
    rw [← sound.live, empty] at held
    exact held.later _
  · cases moves
    exact sound.quiet (by simp) (fun has => has.elim) trivial

/-- What a load opens is the register's value, and no longer the temporary file. -/
theorem openLive (sound : Sound store calls initial config) (apart : store.tmpPath ≠ store.path) {handle : FileHandle}
    (opened : config.shared.openRead store.path = some handle) :
    Sound store calls initial (config.act actor (.works, config.shared, .reading handle [])) := by
  obtain ⟨inode, named, rfl⟩ := Option.map_eq_some_iff.mp opened
  have held := held_register calls initial config.history
  rw [← sound.live, FileSystem.lookup, named] at held
  have notTemporary : config.shared.names store.tmpPath ≠ some inode :=
    fun same => apart (config.shared.single same named)
  exact sound.quiet (by simp) (fun has => has.elim) ⟨config.shared.used named, notTemporary, rfl, held.later _⟩

/-- One step of a call. -/
theorem step (sound : Sound store calls initial config) (apart : store.tmpPath ≠ store.path) {outcome : Outcome}
    {result : StoreAction × Files × StoreStage}
    (moves : (store.actors calls).next actor outcome config.shared (config.own actor) = some result)
    (isOk : Alone config actor result.1) : Sound store calls initial (config.act actor result) := by
  have knows := sound.stages actor
  have moves : store.next (calls actor) outcome config.shared (config.own actor) = some result := moves
  cases own : config.own actor with
  | idle =>
    rw [own] at moves
    exact sound.begin moves
  | creatingParent content parent =>
    rw [own] at moves knows
    cases outcome with
    | moves _ =>
      cases moves
      exact sound.quiet (by simp) (fun has => has.elim) knows
    | fails =>
      cases moves
      exact sound.fail _
  | creating content =>
    rw [own] at moves knows
    cases outcome with
    | moves _ =>
      cases moves
      exact sound.create apart isOk knows
    | fails =>
      cases moves
      exact sound.fail _
  | writing content handle rest =>
    rw [own] at moves knows
    simp only [FileConfigStore.next] at moves
    split at moves
    · rename_i finished
      cases moves
      obtain ⟨isCall, named, _, whole⟩ := knows
      rw [finished, List.append_nil] at whole
      exact sound.quiet (by simp) (fun _ => by rw [own]; trivial) ⟨isCall, _, named, whole⟩
    · cases outcome with
      | moves count =>
        cases moves
        exact sound.write apart own (count + 1)
      | fails =>
        cases moves
        exact sound.fail _
  | replacing content =>
    rw [own] at moves
    simp only [FileConfigStore.next] at moves
    cases outcome with
    | moves _ =>
      dsimp only at moves
      split at moves
      · rename_i files done
        cases moves
        exact sound.rename apart own done
      · cases moves
        exact sound.fail _
    | fails =>
      cases moves
      exact sound.fail _
  | checking =>
    rw [own] at moves
    exact sound.check moves
  | opening =>
    rw [own] at moves
    simp only [FileConfigStore.next] at moves
    cases outcome with
    | moves _ =>
      dsimp only at moves
      split at moves
      · rename_i handle opened
        cases moves
        exact sound.openLive apart opened
      · cases moves
        exact sound.fail _
    | fails =>
      cases moves
      exact sound.fail _
  | reading handle sofar =>
    rw [own] at moves
    cases outcome with
    | moves count => exact sound.read own count moves
    | fails =>
      cases moves
      exact sound.fail _
  | done reply =>
    rw [own] at moves knows
    cases moves
    exact sound.quiet (by simp) (fun has => has.elim) (ReplyHolds.later knows _)
  | returned reply =>
    rw [own] at moves
    cases moves

end Sound

variable [DecidableEq ι] {files : Files} {config : StoreConfig ι}

omit [DecidableEq ι] in
theorem sound_initial (files : Files) : Sound store calls (files.lookup store.path) (.initial files .idle) where
  live := rfl
  alone := fun _ _ has _ => has.elim
  stages := fun _ => trivial
  saves := fun _ member => absurd member List.not_mem_nil

/-- In every run in which no two saves have the temporary file open. -/
theorem sound_of_reaches (apart : store.tmpPath ≠ store.path)
    (reaches : (store.actors calls).ReachesBy Alone (.initial files .idle) config) :
    Sound store calls (files.lookup store.path) config :=
  reaches.invariant (sound_initial files) fun _ _ _ _ sound moves isOk => sound.step apart moves isOk

/-! ### Beginnings and ends -/

omit [DecidableEq ι] in
theorem beginSave_ne_idle (store : FileConfigStore) (content : String) : store.beginSave content ≠ .idle := by
  unfold FileConfigStore.beginSave
  split
  · split <;> simp
  · simp

omit [DecidableEq ι] in
/-- A call leaves its beginning for good, begins there only, and returns what it is done with. -/
theorem next_course (store : FileConfigStore) (call : StoreCall) (outcome : Outcome) (files : Files)
    (stage : StoreStage) : ∀ result ∈ store.next call outcome files stage,
      result.2.2 ≠ .idle ∧ (result.1 = .begins → stage = .idle) ∧
        ∀ reply, result.1 = .returns reply → result.2.2 = .returned reply := by
  fun_cases FileConfigStore.next store call outcome files stage <;>
    simp_all [beginSave_ne_idle]

omit [DecidableEq ι] in
theorem mem_savers {history : List (ι × StoreAction)} {saver : ι} :
    saver ∈ savers history ↔ (saver, StoreAction.renames) ∈ history := by
  simp only [savers, List.mem_filterMap]
  constructor
  · rintro ⟨⟨other, action⟩, member, isSaver⟩
    split at isSaver
    · rename_i isRename
      cases isSaver
      exact isRename ▸ member
    · cases isSaver
  · intro member
    exact ⟨_, member, rfl⟩

/-- What a save has renamed it has begun. -/
theorem begun_of_saver (reaches : (store.actors calls).ReachesBy Alone (.initial files .idle) config) {saver : ι}
    (member : saver ∈ savers config.history) : config.own saver ≠ .idle := by
  intro waits
  exact reaches.no_event (fun _ _ _ _ result moves => (next_course _ _ _ _ _ result moves).1) waits _
    (mem_savers.mp member) rfl

/-- The second save has begun after the first one had returned. -/
def Follows (history : List (ι × StoreAction)) (first second : ι) : Prop :=
  ∃ past middle rest, history = past ++ (first, .returns .saved) :: (middle ++ (second, .begins) :: rest)

/-- The last save to rename its file is not followed by another one that does. -/
theorem not_follows_last (reaches : (store.actors calls).ReachesBy Alone (.initial files .idle) config)
    {last other : ι} (isLast : (savers config.history).getLast? = some last)
    (saves : other ∈ savers config.history) : ¬ Follows config.history last other := by
  rintro ⟨past, middle, rest, split⟩
  -- the other one renames after it begins, and the last one before it returns
  have split' : config.history = (past ++ (last, .returns .saved) :: middle) ++ (other, .begins) :: rest := by
    rw [split]
    simp
  have before := reaches.not_before (fun _ _ _ _ result moves => (next_course _ _ _ _ _ result moves).1)
    (fun action => action = .begins) (fun _ _ _ _ result moves => (next_course _ _ _ _ _ result moves).2.1)
    split' rfl
  have after := (reaches.not_after (fun action => action = .returns .saved) (fun stage => stage = .returned .saved)
    (fun _ _ _ _ result moves => (next_course _ _ _ _ _ result moves).2.2 _)
    (by
      rintro actor outcome files _ rfl
      rfl) split rfl).2
  have renames := mem_savers.mp saves
  rw [split'] at renames isLast
  have inRest : other ∈ savers rest := by
    rw [mem_savers]
    rcases List.mem_append.mp renames with early | late
    · exact absurd rfl (before _ early)
    · simpa using late
  have lastInRest : last ∈ savers rest := by
    have parts : savers ((past ++ (last, .returns .saved) :: middle) ++ (other, .begins) :: rest) =
        savers (past ++ (last, .returns .saved) :: middle) ++ savers rest := by simp [savers]
    rw [parts, List.getLast?_append_of_ne_nil _ (List.ne_nil_of_mem inRest)] at isLast
    exact List.mem_of_getLast? isLast
  exact after _ (List.mem_append_right _ (List.mem_cons_of_mem _ (mem_savers.mp lastInRest))) rfl

/-- The full content of a save that has begun. -/
def Saved (calls : ι → StoreCall) (config : StoreConfig ι) (content : Option Bytes) : Prop :=
  ∃ saver text, calls saver = .save text ∧ config.own saver ≠ .idle ∧ content = some (asBytes text)

theorem saved_of_saver (apart : store.tmpPath ≠ store.path)
    (reaches : (store.actors calls).ReachesBy Alone (.initial files .idle) config) {saver : ι}
    (member : saver ∈ savers config.history) : Saved calls config (calls saver).bytes := by
  obtain ⟨text, isCall⟩ := (sound_of_reaches apart reaches).saves saver member
  exact ⟨saver, text, isCall, begun_of_saver reaches member, by rw [isCall]; rfl⟩

theorem saved_of_held (apart : store.tmpPath ≠ store.path)
    (reaches : (store.actors calls).ReachesBy Alone (.initial files .idle) config) {content : Option Bytes}
    (held : Held calls (files.lookup store.path) config.history content) :
    content = files.lookup store.path ∨ Saved calls config content := by
  rcases held with same | ⟨saver, member, same⟩
  · exact .inl same
  · exact .inr (same ▸ saved_of_saver apart reaches member)

/-- What a load returns is whole, the file is whole at every moment, and what it holds after the
    saves is the content of one that no other save has followed. -/
theorem file_store_atomic (apart : store.tmpPath ≠ store.path)
    (reaches : (store.actors calls).ReachesBy Alone (.initial files .idle) config) :
    (∀ actor content, config.own actor = .returned (.loaded content) →
      content.map asBytes = files.lookup store.path ∨ Saved calls config (content.map asBytes)) ∧
    (config.shared.lookup store.path = files.lookup store.path ∨
      Saved calls config (config.shared.lookup store.path)) ∧
    (∀ actor, config.own actor = .returned .saved → Saved calls config (config.shared.lookup store.path)) ∧
    ((∃ actor, config.own actor = .returned .saved) →
      (∀ saver text, calls saver = .save text → config.own saver ≠ .idle → config.own saver = .returned .saved) →
      ∃ last text, calls last = .save text ∧ config.own last = .returned .saved ∧
        config.shared.lookup store.path = some (asBytes text) ∧
        ∀ other text', calls other = .save text' → ¬ Follows config.history last other) := by
  have sound := sound_of_reaches apart reaches
  have replies (actor : ι) (reply : StoreReply) (returned : config.own actor = .returned reply) :
      ReplyHolds calls (files.lookup store.path) config.history actor reply := by
    have knows := sound.stages actor
    rwa [returned] at knows
  have last (actor : ι) (returned : config.own actor = .returned .saved) :
      ∃ last ∈ savers config.history, (savers config.history).getLast? = some last ∧
        config.shared.lookup store.path = (calls last).bytes := by
    have member : actor ∈ savers config.history := replies actor .saved returned
    have isLast := List.getLast?_eq_some_getLast (List.ne_nil_of_mem member)
    refine ⟨_, List.getLast_mem _, isLast, ?_⟩
    rw [sound.live, register, isLast]
  refine ⟨?_, ?_, ?_, ?_⟩
  · intro actor content returned
    exact saved_of_held apart reaches (replies actor _ returned)
  · have held := held_register calls (files.lookup store.path) config.history
    rw [← sound.live] at held
    exact saved_of_held apart reaches held
  · intro actor returned
    obtain ⟨last, member, _, holds⟩ := last actor returned
    rw [holds]
    exact saved_of_saver apart reaches member
  · rintro ⟨actor, returned⟩ all
    obtain ⟨last, member, isLast, holds⟩ := last actor returned
    obtain ⟨text, isCall⟩ := sound.saves last member
    have finished := all last text isCall (begun_of_saver reaches member)
    refine ⟨last, text, isCall, finished, by rw [holds, isCall]; rfl, fun other text' isSave follows => ?_⟩
    -- one that follows it has begun, so it has renamed its file later
    obtain ⟨past, middle, rest, split⟩ := id follows
    have begun : config.own other ≠ .idle := fun waits =>
      reaches.no_event (fun _ _ _ _ result moves => (next_course _ _ _ _ _ result moves).1) waits (other, .begins)
        (by rw [split]; simp) rfl
    have renames : other ∈ savers config.history := replies other .saved (all other text' isSave begun)
    exact not_follows_last reaches isLast renames follows

/-! ### Two saves -/

/-- The files with a configuration. -/
def FileConfigStore.holding (store : FileConfigStore) (content : String) : Files :=
  (FileSystem.empty.addFile store.path rfl).setContents 0 (asBytes content)

def spectraToml : FileConfigStore := ⟨"/etc/spectra/", "config.toml"⟩

def twoSaves : Fin 3 → StoreCall
  | 0 => .save "x = 1"
  | 1 => .save "x = 2"
  | 2 => .load

instance {number : Nat} (config : StoreConfig (Fin number)) (actor : Fin number) (action : StoreAction) :
    Decidable (Alone config actor action) :=
  inferInstanceAs (Decidable (action = .creates → ∀ other, ¬ (config.own other).HasTemporary))

theorem file_store_atomic_twoSaves :
    ∃ config, (spectraToml.actors twoSaves).ReachesBy Alone (.initial (spectraToml.holding "x = 0") .idle) config ∧
      config.own 0 = .returned .saved ∧ config.own 1 = .returned .saved ∧
      config.own 2 = .returned (.loaded (some "x = 2")) ∧
      (some (asBytes "x = 2") = (spectraToml.holding "x = 0").lookup spectraToml.path ∨
        Saved twoSaves config (some (asBytes "x = 2"))) ∧
      Saved twoSaves config (config.shared.lookup spectraToml.path) := by
  let schedule : List (Fin 3 × Outcome) :=
    List.replicate 7 (0, .moves 7) ++ List.replicate 7 (1, .moves 7) ++ List.replicate 6 (2, .moves 7)
  let result := (spectraToml.actors twoSaves).run (fun config actor action => decide (Alone config actor action))
    schedule (.initial (spectraToml.holding "x = 0") .idle)
  have replies : result.map (fun config => (config.own 0, config.own 1, config.own 2)) =
      some (.returned .saved, .returned .saved, .returned (.loaded (some "x = 2"))) := by decide +kernel
  obtain ⟨config, runs, replies⟩ := Option.map_eq_some_iff.mp replies
  obtain ⟨first, second, loaded⟩ := by simpa using replies
  have reaches := Actors.run_reachesBy (fun _ _ _ checked => of_decide_eq_true checked) schedule .start runs
  have atomic := file_store_atomic (by decide) reaches
  exact ⟨config, reaches, first, second, loaded, atomic.1 2 _ loaded, atomic.2.2.1 0 first⟩

/-- The second save empties the temporary file that the first one has written and not yet renamed. -/
theorem twoSaves_truncate :
    ∃ config, (spectraToml.actors twoSaves).Reaches (.initial (spectraToml.holding "x = 0") .idle) config ∧
      config.own 0 = .returned .saved ∧ config.own 2 = .returned (.loaded (some "")) ∧
      config.shared.lookup spectraToml.path = some [] ∧
      (spectraToml.holding "x = 0").lookup spectraToml.path = some (asBytes "x = 0") ∧
      ¬ Saved twoSaves config (some (asBytes "")) := by
  let schedule : List (Fin 3 × Outcome) :=
    List.replicate 5 (0, .moves 7) ++ List.replicate 3 (1, .moves 7) ++ List.replicate 2 (0, .moves 7) ++
      List.replicate 5 (2, .moves 7)
  let result := (spectraToml.actors twoSaves).run (fun _ _ _ => true) schedule
    (.initial (spectraToml.holding "x = 0") .idle)
  have outcome : result.map (fun config => (config.own 0, config.own 2, config.shared.lookup spectraToml.path)) =
      some (.returned .saved, .returned (.loaded (some "")), some []) := by decide +kernel
  obtain ⟨config, runs, outcome⟩ := Option.map_eq_some_iff.mp outcome
  obtain ⟨saved, loaded, live⟩ := by simpa using outcome
  have reaches := Actors.run_reachesBy (fun _ _ _ _ => trivial) schedule .start runs
  refine ⟨config, reaches, saved, loaded, live, by decide +kernel, ?_⟩
  -- neither save is one of nothing
  rintro ⟨saver, text, isSave, _, same⟩
  have empty : text = "" := (asBytes_inj.mp (Option.some.inj same)).symm
  subst empty
  match saver with
  | 0 | 1 => simp [twoSaves] at isSave
  | 2 => cases isSave

end Soundness

end SpectraGQL.Core
