import VoxTranslate.Engine.Qwen
import VoxTranslate.Lib.Assoc

/-!
# Installing a voice pack (`tts/installer.ts`, `tts/storage.ts`)

The files of a pack are stored one by one, under keys that begin with the pack and its version, and
the record of the installation is written last.  When a file fails, everything under that beginning
is deleted again: also what was installed there before.  When the record fails, nothing is.
-/

namespace VoxTranslate.Client

open Lib
open Engine (Text)

/-- A file of a pack, with the digest that it should have. -/
structure PackFile where
  path : Text
  sha256 : Text
  deriving DecidableEq, Repr

/-- A pack of the manifest. -/
structure ManifestPack where
  id : Text
  version : Text
  files : List PackFile
  deriving DecidableEq, Repr

/-- The record of an installation. -/
structure InstallMeta where
  packId : Text
  version : Text
  files : List PackFile
  deriving DecidableEq, Repr

/-- `fileKey`: `<packId>/<version>/<path>`. -/
def fileKey (packId version path : Text) : Text := packId ++ '/' :: (version ++ '/' :: path)

/-- What the keys that `deleteFiles` deletes begin with: an empty version stands for all. -/
def deleteScope (packId version : Text) : Text :=
  if version = [] then packId ++ ['/'] else packId ++ '/' :: (version ++ ['/'])

/-- The database of the voice packs. -/
structure PackStorage (β : Type*) where
  files : Assoc Text β
  metas : Assoc Text InstallMeta

namespace PackStorage

variable {β : Type*}

def putFile (s : PackStorage β) (key : Text) (blob : β) : PackStorage β :=
  { s with files := s.files.insert key blob }

def getFile (s : PackStorage β) (key : Text) : Option β := s.files.lookup key

def deleteFiles (s : PackStorage β) (packId version : Text) : PackStorage β :=
  let keys := s.files.keys.filter fun key => (deleteScope packId version).isPrefixOf key
  { s with files := s.files.eraseAll keys }

def putMeta (s : PackStorage β) (record : InstallMeta) : PackStorage β :=
  { s with metas := s.metas.insert record.packId record }

def getMeta (s : PackStorage β) (packId : Text) : Option InstallMeta := s.metas.lookup packId

/-- The key is one of a version that is recorded as installed. -/
def Recorded (s : PackStorage β) (key : Text) : Prop :=
  ∃ packId record, s.getMeta packId = some record ∧ fileKey packId record.version [] <+: key

/-- Nothing is stored but files of versions that are recorded. -/
def Tidy (s : PackStorage β) : Prop := ∀ key, (s.getFile key).isSome = true → s.Recorded key

variable {s : PackStorage β} {packId version key : Text}

/-- What is deleted is what begins with the scope. -/
lemma getFile_deleteFiles : (s.deleteFiles packId version).getFile key =
    if deleteScope packId version <+: key then none else s.getFile key := by
  simp only [getFile, deleteFiles, Assoc.lookup_eraseAll, List.mem_filter,
    List.isPrefixOf_iff_prefix]
  by_cases hscope : deleteScope packId version <+: key
  · simp only [hscope, and_true, if_true]
    split_ifs with hkey
    · rfl
    · exact AList.lookup_eq_none.mpr hkey
  · simp only [hscope, and_false, if_false]

lemma scope_fileKey (packId version path : Text) :
    deleteScope packId version <+: fileKey packId version path := by
  rw [deleteScope]
  split_ifs with hempty
  · exact ⟨version ++ '/' :: path, by simp [fileKey]⟩
  · exact ⟨path, by simp [fileKey]⟩

end PackStorage

/-- Why an installation is rejected. -/
inductive InstallError where
  | download (error : String)
  | integrity (path : Text)
  | storage
  deriving DecidableEq, Repr

/-- What becomes of one file: its bytes, unless the network fails or the user cancels, and whether
it can be stored. -/
structure Transfer (β : Type*) where
  download : Except String β
  stored : Bool

/-- What the world answers to one installation. -/
structure InstallWorld (β : Type*) where
  /-- `getMeta` succeeds. -/
  reads : Bool
  /-- What becomes of the `i`-th file. -/
  transfer : Nat → Transfer β
  /-- The `deleteFiles` of the rollback succeeds. -/
  rollsBack : Bool
  /-- `putMeta` succeeds. -/
  records : Bool
  /-- The `deleteFiles` of the superseded version succeeds. -/
  drops : Bool

namespace VoicePackInstaller

variable {β : Type*} (sha256Hex : β → Text) (toLowerCase : Text → Text)

/-- The loop of `install` over the files, from the `i`-th one on. -/
def storeFiles (world : InstallWorld β) (pack : ManifestPack) :
    Nat → List PackFile → PackStorage β → PackStorage β × Option InstallError
  | _, [], s => (s, none)
  | i, file :: files, s =>
    match (world.transfer i).download with
    | .error e => (s, some (.download e))
    | .ok buf =>
      if sha256Hex buf ≠ toLowerCase file.sha256 then (s, some (.integrity file.path))
      else if (world.transfer i).stored then
        storeFiles world pack (i + 1) files
          (s.putFile (fileKey pack.id pack.version file.path) buf)
      else (s, some .storage)

/-- A successful update drops the version before. -/
def supersede (world : InstallWorld β) (pack : ManifestPack) (prev : Option InstallMeta)
    (s : PackStorage β) : PackStorage β :=
  match prev with
  | some prev =>
    if prev.version ≠ pack.version ∧ world.drops then s.deleteFiles pack.id prev.version else s
  | none => s

/-- `install`. -/
def install (world : InstallWorld β) (pack : ManifestPack) (s : PackStorage β) :
    PackStorage β × Except InstallError InstallMeta :=
  if world.reads then
    let prev := s.getMeta pack.id
    match storeFiles sha256Hex toLowerCase world pack 0 pack.files s with
    | (s, some e) =>
      (if world.rollsBack then s.deleteFiles pack.id pack.version else s, .error e)
    | (s, none) =>
      let record : InstallMeta := ⟨pack.id, pack.version, pack.files⟩
      -- outside the rollback
      if world.records then (supersede world pack prev (s.putMeta record), .ok record)
      else (s, .error .storage)
  else (s, .error .storage)

/-- `verifyIntegrity`: every file that is recorded is there, with its digest. -/
def verifyIntegrity (s : PackStorage β) (packId : Text) : Bool :=
  match s.getMeta packId with
  | none => false
  | some record =>
    record.files.all fun file =>
      match s.getFile (fileKey packId record.version file.path) with
      | none => false
      | some blob => sha256Hex blob = toLowerCase file.sha256

/-! ## What arrives -/

/-- The leading files that arrive: each is downloaded, has its digest and can be stored. -/
def landed (world : InstallWorld β) : Nat → List PackFile → List (PackFile × β)
  | _, [] => []
  | i, file :: files =>
    match (world.transfer i).download with
    | .error _ => []
    | .ok buf =>
      if sha256Hex buf = toLowerCase file.sha256 ∧ (world.transfer i).stored then
        (file, buf) :: landed world (i + 1) files
      else []

/-- The storage with these files of the pack. -/
def putFiles (pack : ManifestPack) (l : List (PackFile × β)) (s : PackStorage β) :
    PackStorage β :=
  { s with files := s.files.insertAll (l.map fun e => (fileKey pack.id pack.version e.1.path, e.2)) }

/-- The last of these files of the pack that has the key. -/
def lastUnder (pack : ManifestPack) (files : List PackFile) (key : Text) : Option PackFile :=
  files.reverse.find? fun file => fileKey pack.id pack.version file.path = key

variable {sha256Hex toLowerCase} {world : InstallWorld β} {pack : ManifestPack}
  {s t : PackStorage β} {files : List PackFile} {l : List (PackFile × β)} {key packId : Text}

lemma storeFiles_spec (sha256Hex : β → Text) (toLowerCase : Text → Text) (world : InstallWorld β) (pack : ManifestPack) (i : Nat)
    (files : List PackFile) (s : PackStorage β) :
    (storeFiles sha256Hex toLowerCase world pack i files s).1 =
        putFiles pack (landed sha256Hex toLowerCase world i files) s ∧
      ((storeFiles sha256Hex toLowerCase world pack i files s).2 = none ↔
        (landed sha256Hex toLowerCase world i files).map Prod.fst = files) := by
  induction files generalizing i s with
  | nil => exact ⟨rfl, iff_of_true rfl rfl⟩
  | cons file files ih =>
    rw [storeFiles, landed]
    cases (world.transfer i).download with
    | error e => exact ⟨rfl, iff_of_false (by simp) (by simp)⟩
    | ok buf =>
      by_cases hdigest : sha256Hex buf = toLowerCase file.sha256
      · by_cases hstored : (world.transfer i).stored = true
        · simp only [hdigest, hstored, ne_eq, not_true_eq_false, if_false, if_true, and_self]
          obtain ⟨hstate, hnone⟩ := ih (i + 1) (s.putFile (fileKey pack.id pack.version file.path) buf)
          refine ⟨hstate, ?_⟩
          rw [hnone, List.map_cons, List.cons.injEq, eq_self, true_and]
        · simp only [hdigest, hstored, ne_eq, not_true_eq_false, if_false]
          exact ⟨rfl, iff_of_false (by simp) (by simp)⟩
      · simp only [hdigest, ne_eq, not_false_eq_true, if_true, false_and, if_false]
        exact ⟨rfl, iff_of_false (by simp) (by simp)⟩

/-- What arrives has its digest. -/
lemma sha256Hex_of_mem_landed {i : Nat} {e : PackFile × β}
    (he : e ∈ landed sha256Hex toLowerCase world i files) :
    sha256Hex e.2 = toLowerCase e.1.sha256 := by
  induction files generalizing i with
  | nil => cases he
  | cons file files ih =>
    rw [landed] at he
    split at he
    · cases he
    · split_ifs at he with harrives
      · rcases List.mem_cons.mp he with rfl | he
        · exact harrives.1
        · exact ih he
      · cases he

lemma getFile_putFiles (key : Text) : (putFiles pack l s).getFile key =
    ((l.reverse.find? fun e => fileKey pack.id pack.version e.1.path = key).map Prod.snd).or
      (s.getFile key) := by
  rw [PackStorage.getFile, putFiles, Assoc.lookup_insertAll, ← List.map_reverse, List.find?_map,
    Option.map_map]
  rfl

lemma lastUnder_map (key : Text) : lastUnder pack (l.map Prod.fst) key =
    (l.reverse.find? fun e => fileKey pack.id pack.version e.1.path = key).map Prod.fst := by
  rw [lastUnder, ← List.map_reverse, List.find?_map]
  rfl

/-- A key holds the last file that was put there, with its digest, or what it held before. -/
lemma getFile_cases (pack : ManifestPack) (s : PackStorage β)
    (hdigest : ∀ e ∈ l, sha256Hex e.2 = toLowerCase e.1.sha256) (key : Text) :
    (lastUnder pack (l.map Prod.fst) key = none ∧ (putFiles pack l s).getFile key = s.getFile key) ∨
      ∃ file buf, lastUnder pack (l.map Prod.fst) key = some file ∧
        (putFiles pack l s).getFile key = some buf ∧
        sha256Hex buf = toLowerCase file.sha256 ∧ file ∈ l.map Prod.fst ∧
        fileKey pack.id pack.version file.path = key := by
  rw [getFile_putFiles, lastUnder_map]
  cases hfind : l.reverse.find? fun e => fileKey pack.id pack.version e.1.path = key with
  | none => exact .inl ⟨rfl, rfl⟩
  | some e =>
    have hmem := List.mem_reverse.mp (List.mem_of_find?_eq_some hfind)
    have hkey := List.find?_some hfind
    exact .inr ⟨e.1, e.2, rfl, rfl, hdigest e hmem, List.mem_map_of_mem hmem, of_decide_eq_true hkey⟩

lemma verifyIntegrity_iff : verifyIntegrity sha256Hex toLowerCase s packId = true ↔
    ∃ record, s.getMeta packId = some record ∧ ∀ file ∈ record.files, ∃ blob,
      s.getFile (fileKey packId record.version file.path) = some blob ∧
        sha256Hex blob = toLowerCase file.sha256 := by
  rw [verifyIntegrity]
  cases s.getMeta packId with
  | none => simp
  | some record =>
    simp only [List.all_eq_true, Option.some_inj, exists_eq_left']
    refine forall₂_congr fun file _ => ?_
    cases s.getFile (fileKey packId record.version file.path) <;> simp

/-! ## Atomicity -/

section Atomicity

variable (sha256Hex toLowerCase)

/-- Every pack that was sound still is, and no version is stored that is not recorded. -/
structure Unharmed (s t : PackStorage β) : Prop where
  verified : ∀ packId, verifyIntegrity sha256Hex toLowerCase s packId = true →
    verifyIntegrity sha256Hex toLowerCase t packId = true
  tidy : t.Tidy

/-- An installation that is rejected does no harm, and one that succeeds leaves a sound pack. -/
def InstallsAtomically (world : InstallWorld β) (pack : ManifestPack) (s : PackStorage β) : Prop :=
  match install sha256Hex toLowerCase world pack s with
  | (t, .ok _) => verifyIntegrity sha256Hex toLowerCase t pack.id = true
  | (t, .error _) => Unharmed sha256Hex toLowerCase s t

/-- A file of a sound pack. -/
def Verified (s : PackStorage β) (packId version : Text) (file : PackFile) : Prop :=
  verifyIntegrity sha256Hex toLowerCase s packId = true ∧
    ∃ record, s.getMeta packId = some record ∧ record.version = version ∧ file ∈ record.files

/-- These files of the pack may stay behind: they are of versions that are recorded, and where one
of them replaces a file of a sound pack it has the same digest. -/
structure MayStay (pack : ManifestPack) (s : PackStorage β) (files : List PackFile) : Prop where
  tidy : s.Tidy
  recorded : ∀ file ∈ files, s.Recorded (fileKey pack.id pack.version file.path)
  same : ∀ packId version file, Verified sha256Hex toLowerCase s packId version file →
    ∀ file', lastUnder pack files (fileKey packId version file.path) = some file' →
      toLowerCase file'.sha256 = toLowerCase file.sha256

/-- The rollback may delete its scope: no sound pack has a file there, and all that is not recorded
is there. -/
structure MayRollBack (pack : ManifestPack) (s : PackStorage β) : Prop where
  spared : ∀ packId version file, Verified sha256Hex toLowerCase s packId version file →
    ¬ deleteScope pack.id pack.version <+: fileKey packId version file.path
  recorded : ∀ key, (s.getFile key).isSome = true →
    deleteScope pack.id pack.version <+: key ∨ s.Recorded key

/-- Every file of the pack has the digest of the last one with its path, and is not deleted with
the version that was superseded. -/
structure MayLand (world : InstallWorld β) (pack : ManifestPack) (s : PackStorage β) : Prop where
  same : ∀ file ∈ pack.files, ∀ file',
    lastUnder pack pack.files (fileKey pack.id pack.version file.path) = some file' →
      toLowerCase file'.sha256 = toLowerCase file.sha256
  spared : ∀ prev, s.getMeta pack.id = some prev → prev.version ≠ pack.version →
    world.drops = true → ∀ file ∈ pack.files,
      ¬ deleteScope pack.id prev.version <+: fileKey pack.id pack.version file.path

end Atomicity

lemma Verified.getFile {version : Text} {file : PackFile}
    (h : Verified sha256Hex toLowerCase s packId version file) : ∃ blob,
      s.getFile (fileKey packId version file.path) = some blob ∧
        sha256Hex blob = toLowerCase file.sha256 := by
  obtain ⟨hverified, record, hmeta, rfl, hfile⟩ := h
  obtain ⟨record', hmeta', hfiles⟩ := verifyIntegrity_iff.mp hverified
  cases hmeta.symm.trans hmeta'
  exact hfiles file hfile

/-- With the records unchanged, sound packs stay sound exactly if each of their files does. -/
lemma verified_iff (hmeta : ∀ packId, t.getMeta packId = s.getMeta packId) :
    (∀ packId, verifyIntegrity sha256Hex toLowerCase s packId = true →
      verifyIntegrity sha256Hex toLowerCase t packId = true) ↔
    ∀ packId version file, Verified sha256Hex toLowerCase s packId version file → ∃ blob,
      t.getFile (fileKey packId version file.path) = some blob ∧
        sha256Hex blob = toLowerCase file.sha256 := by
  constructor
  · rintro h packId version file ⟨hverified, record, hrecord, rfl, hfile⟩
    obtain ⟨record', hrecord', hfiles⟩ := verifyIntegrity_iff.mp (h packId hverified)
    cases (hrecord.symm.trans (hmeta packId).symm).trans hrecord'
    exact hfiles file hfile
  · intro h packId hverified
    obtain ⟨record, hrecord, -⟩ := verifyIntegrity_iff.mp hverified
    refine verifyIntegrity_iff.mpr ⟨record, (hmeta packId).trans hrecord, fun file hfile => ?_⟩
    exact h packId record.version file ⟨hverified, record, hrecord, rfl, hfile⟩

lemma recorded_congr (hmeta : ∀ packId, t.getMeta packId = s.getMeta packId) (key : Text) :
    t.Recorded key ↔ s.Recorded key := by
  simp only [PackStorage.Recorded, hmeta]

/-- Files that stay behind. -/
lemma unharmed_putFiles_iff (pack : ManifestPack) (s : PackStorage β)
    (hdigest : ∀ e ∈ l, sha256Hex e.2 = toLowerCase e.1.sha256) :
    Unharmed sha256Hex toLowerCase s (putFiles pack l s) ↔
      MayStay sha256Hex toLowerCase pack s (l.map Prod.fst) := by
  have hmeta : ∀ packId, (putFiles pack l s).getMeta packId = s.getMeta packId := fun _ => rfl
  have hcases := getFile_cases pack s hdigest
  constructor
  · rintro ⟨hverified, htidy⟩
    refine ⟨fun key hkey => ?_, fun file hfile => ?_, fun packId version file hfile file' hlast => ?_⟩
    · refine (recorded_congr hmeta key).mp (htidy key ?_)
      rcases hcases key with ⟨-, hsame⟩ | ⟨_, buf, -, hput, -⟩
      · rwa [hsame]
      · rw [hput]
        rfl
    · refine (recorded_congr hmeta _).mp (htidy _ ?_)
      rcases hcases (fileKey pack.id pack.version file.path) with ⟨hnone, -⟩ | ⟨_, buf, -, hput, -⟩
      · rw [lastUnder, List.find?_eq_none] at hnone
        exact absurd (decide_eq_true rfl) (hnone file (List.mem_reverse.mpr hfile))
      · rw [hput]
        rfl
    · obtain ⟨blob, hblob, hblobDigest⟩ :=
        (verified_iff hmeta).mp hverified packId version file hfile
      rcases hcases (fileKey packId version file.path) with
        ⟨hnone, -⟩ | ⟨last, buf, hsome, hput, hbufDigest, -⟩
      · cases hnone.symm.trans hlast
      · cases hsome.symm.trans hlast
        cases hput.symm.trans hblob
        exact hbufDigest.symm.trans hblobDigest
  · rintro ⟨htidy, hrecorded, hsame⟩
    refine ⟨(verified_iff hmeta).mpr fun packId version file hfile => ?_, fun key hkey => ?_⟩
    · rcases hcases (fileKey packId version file.path) with
        ⟨-, hkept⟩ | ⟨last, buf, hsome, hput, hbufDigest, -⟩
      · rw [hkept]
        exact hfile.getFile
      · exact ⟨buf, hput, hbufDigest.trans (hsame packId version file hfile last hsome)⟩
    · refine (recorded_congr hmeta key).mpr ?_
      rcases hcases key with ⟨-, hkept⟩ | ⟨last, buf, -, -, -, hmem, rfl⟩
      · exact htidy key (hkept ▸ hkey)
      · exact hrecorded last hmem

/-- Files that are rolled back. -/
lemma unharmed_deleteFiles_iff (hdigest : ∀ e ∈ l, sha256Hex e.2 = toLowerCase e.1.sha256) :
    Unharmed sha256Hex toLowerCase s ((putFiles pack l s).deleteFiles pack.id pack.version) ↔
      MayRollBack sha256Hex toLowerCase pack s := by
  have hmeta : ∀ packId, ((putFiles pack l s).deleteFiles pack.id pack.version).getMeta packId =
      s.getMeta packId := fun _ => rfl
  -- what was put is deleted, and nothing else changed
  have hget : ∀ key, ((putFiles pack l s).deleteFiles pack.id pack.version).getFile key =
      if deleteScope pack.id pack.version <+: key then none else s.getFile key := by
    intro key
    rw [PackStorage.getFile_deleteFiles]
    split_ifs with hscope
    · rfl
    · rcases getFile_cases pack s hdigest key with
        ⟨-, hkept⟩ | ⟨_, _, -, -, -, -, rfl⟩
      · exact hkept
      · exact absurd (PackStorage.scope_fileKey _ _ _) hscope
  constructor
  · rintro ⟨hverified, htidy⟩
    refine ⟨fun packId version file hfile hscope => ?_, fun key hkey => ?_⟩
    · obtain ⟨blob, hblob, -⟩ := (verified_iff hmeta).mp hverified packId version file hfile
      rw [hget, if_pos hscope] at hblob
      cases hblob
    · by_cases hscope : deleteScope pack.id pack.version <+: key
      · exact .inl hscope
      · refine .inr ((recorded_congr hmeta key).mp (htidy key ?_))
        rwa [hget, if_neg hscope]
  · rintro ⟨hspared, hrecorded⟩
    refine ⟨(verified_iff hmeta).mpr fun packId version file hfile => ?_, fun key hkey => ?_⟩
    · rw [hget, if_neg (hspared packId version file hfile)]
      exact hfile.getFile
    · rw [hget] at hkey
      by_cases hscope : deleteScope pack.id pack.version <+: key
      · rw [if_pos hscope] at hkey
        cases hkey
      · rw [if_neg hscope] at hkey
        exact (recorded_congr hmeta key).mpr ((hrecorded key hkey).resolve_left hscope)

/-- A pack that has landed, whatever is deleted of the version before. -/
lemma verify_landed_iff (s : PackStorage β) (deleted : Text → Prop) [DecidablePred deleted]
    (hdigest : ∀ e ∈ l, sha256Hex e.2 = toLowerCase e.1.sha256)
    (hall : l.map Prod.fst = pack.files)
    (hmeta : t.getMeta pack.id = some ⟨pack.id, pack.version, pack.files⟩)
    (hget : ∀ key, t.getFile key = if deleted key then none else (putFiles pack l s).getFile key) :
    verifyIntegrity sha256Hex toLowerCase t pack.id = true ↔
      (∀ file ∈ pack.files, ∀ file',
        lastUnder pack pack.files (fileKey pack.id pack.version file.path) = some file' →
          toLowerCase file'.sha256 = toLowerCase file.sha256) ∧
      ∀ file ∈ pack.files, ¬ deleted (fileKey pack.id pack.version file.path) := by
  have hcases := getFile_cases pack s hdigest
  rw [hall] at hcases
  -- every file of the pack is put
  have hput : ∀ file ∈ pack.files, ∃ last buf,
      lastUnder pack pack.files (fileKey pack.id pack.version file.path) = some last ∧
      (putFiles pack l s).getFile (fileKey pack.id pack.version file.path) = some buf ∧
      sha256Hex buf = toLowerCase last.sha256 := by
    intro file hfile
    rcases hcases (fileKey pack.id pack.version file.path) with
      ⟨hnone, -⟩ | ⟨last, buf, hsome, hbuf, hbufDigest, -⟩
    · rw [lastUnder, List.find?_eq_none] at hnone
      exact absurd (decide_eq_true rfl) (hnone file (List.mem_reverse.mpr hfile))
    · exact ⟨last, buf, hsome, hbuf, hbufDigest⟩
  rw [verifyIntegrity_iff]
  constructor
  · rintro ⟨record, hrecord, hfiles⟩
    cases hmeta.symm.trans hrecord
    refine ⟨fun file hfile file' hlast => ?_, fun file hfile hdeleted => ?_⟩
    all_goals
      obtain ⟨blob, hblob, hblobDigest⟩ := hfiles file hfile
      rw [hget] at hblob
    · obtain ⟨last, buf, hsome, hbuf, hbufDigest⟩ := hput file hfile
      cases hsome.symm.trans hlast
      split_ifs at hblob with hkept
      cases hbuf.symm.trans hblob
      exact hbufDigest.symm.trans hblobDigest
    · rw [if_pos hdeleted] at hblob
      cases hblob
  · rintro ⟨hsame, hspared⟩
    refine ⟨_, hmeta, fun file hfile => ?_⟩
    obtain ⟨last, buf, hsome, hbuf, hbufDigest⟩ := hput file hfile
    refine ⟨buf, ?_, hbufDigest.trans (hsame file hfile last hsome)⟩
    rw [hget, if_neg (hspared file hfile)]
    exact hbuf

lemma verify_supersede_iff (hdigest : ∀ e ∈ l, sha256Hex e.2 = toLowerCase e.1.sha256)
    (hall : l.map Prod.fst = pack.files) :
    verifyIntegrity sha256Hex toLowerCase (supersede world pack (s.getMeta pack.id)
        ((putFiles pack l s).putMeta ⟨pack.id, pack.version, pack.files⟩)) pack.id = true ↔
      MayLand toLowerCase world pack s := by
  obtain ⟨t, ht⟩ : ∃ t, t = (putFiles pack l s).putMeta ⟨pack.id, pack.version, pack.files⟩ :=
    ⟨_, rfl⟩
  have hmeta : t.getMeta pack.id = some ⟨pack.id, pack.version, pack.files⟩ := by
    rw [ht]
    exact AList.lookup_insert _
  have hget : ∀ key, t.getFile key = (putFiles pack l s).getFile key := fun key => by rw [ht]; rfl
  rw [← ht]
  by_cases hdrops : ∃ prev, s.getMeta pack.id = some prev ∧ prev.version ≠ pack.version ∧
      world.drops = true
  · obtain ⟨prev, hprev, hdrops⟩ := hdrops
    simp only [hprev, supersede, if_pos hdrops]
    rw [verify_landed_iff (t := t.deleteFiles pack.id prev.version) s
      (fun key => deleteScope pack.id prev.version <+: key) hdigest hall hmeta
      fun key => by rw [PackStorage.getFile_deleteFiles, hget]]
    constructor
    · rintro ⟨hsame, hspared⟩
      refine ⟨hsame, fun prev' hprev' _ _ => ?_⟩
      cases hprev.symm.trans hprev'
      exact hspared
    · rintro ⟨hsame, hspared⟩
      exact ⟨hsame, hspared prev hprev hdrops.1 hdrops.2⟩
  · have hkeep : supersede world pack (s.getMeta pack.id) t = t := by
      cases hprev : s.getMeta pack.id with
      | none => rfl
      | some prev => exact if_neg fun h => hdrops ⟨prev, hprev, h⟩
    rw [hkeep, verify_landed_iff s (fun _ => False) hdigest hall hmeta
      fun key => by rw [if_neg not_false, hget]]
    constructor
    · rintro ⟨hsame, -⟩
      exact ⟨hsame, fun prev hprev hne hdrop => absurd ⟨prev, hprev, hne, hdrop⟩ hdrops⟩
    · rintro ⟨hsame, -⟩
      exact ⟨hsame, fun _ _ => id⟩

/-- The condition: what the outcome of the files, the record and the deletions leaves behind is as
it may be. -/
def Permits (sha256Hex : β → Text) (toLowerCase : Text → Text) (world : InstallWorld β)
    (pack : ManifestPack) (s : PackStorage β) : Prop :=
  let arrived := (landed sha256Hex toLowerCase world 0 pack.files).map Prod.fst
  if world.reads = false then s.Tidy
  else if arrived = pack.files then
    if world.records then MayLand toLowerCase world pack s
    else MayStay sha256Hex toLowerCase pack s pack.files
  else if world.rollsBack then MayRollBack sha256Hex toLowerCase pack s
  else MayStay sha256Hex toLowerCase pack s arrived

/-- **Installing a pack** is atomic exactly where what it deletes and what it leaves are no files of
sound packs and of versions that are not recorded. -/
theorem installsAtomically_iff (sha256Hex : β → Text) (toLowerCase : Text → Text)
    (world : InstallWorld β) (pack : ManifestPack) (s : PackStorage β) :
    InstallsAtomically sha256Hex toLowerCase world pack s ↔
      Permits sha256Hex toLowerCase world pack s := by
  have hdigest : ∀ e ∈ landed sha256Hex toLowerCase world 0 pack.files,
      sha256Hex e.2 = toLowerCase e.1.sha256 := fun e he => sha256Hex_of_mem_landed he
  obtain ⟨hstate, hnone⟩ := storeFiles_spec sha256Hex toLowerCase world pack 0 pack.files s
  rw [InstallsAtomically, install, Permits]
  cases hreads : world.reads with
  | false =>
    simp only [Bool.false_eq_true, if_false, if_true]
    exact ⟨fun h => h.tidy, fun htidy => ⟨fun _ => id, htidy⟩⟩
  | true =>
    simp only [if_true, Bool.true_eq_false, if_false]
    cases hloop : storeFiles sha256Hex toLowerCase world pack 0 pack.files s with
    | mk stored failure =>
      rw [hloop] at hstate hnone
      cases failure with
      | some e =>
        rw [if_neg (fun hall => by cases hnone.mpr hall)]
        simp only at hstate ⊢
        rw [hstate]
        split_ifs
        · exact unharmed_deleteFiles_iff hdigest
        · exact unharmed_putFiles_iff pack s hdigest
      | none =>
        have hall := hnone.mp rfl
        rw [if_pos hall]
        simp only at hstate ⊢
        rw [hstate]
        by_cases hrecords : world.records = true
        · rw [if_pos hrecords, if_pos hrecords]
          exact verify_supersede_iff hdigest hall
        · have hstay := unharmed_putFiles_iff pack s hdigest
          rw [hall] at hstay
          rw [if_neg hrecords, if_neg hrecords]
          exact hstay

lemma InstallsAtomically.of_rejected (h : InstallsAtomically sha256Hex toLowerCase world pack s)
    (hrejected : (install sha256Hex toLowerCase world pack s).2.toOption = none) :
    Unharmed sha256Hex toLowerCase s (install sha256Hex toLowerCase world pack s).1 := by
  rw [InstallsAtomically] at h
  generalize install sha256Hex toLowerCase world pack s = result at h hrejected ⊢
  obtain ⟨t, e | record⟩ := result
  · exact h
  · cases hrejected

/-- The version of a pack that is installed is installed again, and the second file does not
arrive: the rollback deletes the files of the pack that works. -/
theorem failed_reinstall_breaks :
    let model := "bytes-of-model.onnx".toList
    let config := "bytes-of-config.json".toList
    let modelHash := "553883945ae695117689e01bbd4ae605cebaa562efe4ad01d357d861d0cece68".toList
    let configHash := "a0623ddcb87b9529e9a2d12cc81224d4fe2502cc5d9dd2bceccf58408751a8e7".toList
    let sha256Hex : Text → Text := fun buf =>
      if buf = model then modelHash else if buf = config then configHash else []
    let toLowerCase : Text → Text := List.map Char.toLower
    let pack : ManifestPack := ⟨"kokoro-en".toList, "1.0.0".toList,
      [⟨"model.onnx".toList, modelHash⟩, ⟨"config.json".toList, configHash⟩]⟩
    let served : Nat → Transfer Text := fun i => ⟨.ok (if i = 0 then model else config), true⟩
    let lost : Nat → Transfer Text := fun i =>
      if i = 0 then served 0 else ⟨.error "download failed (503)", true⟩
    let installed := (install sha256Hex toLowerCase ⟨true, served, true, true, true⟩ pack
      ⟨∅, ∅⟩).1
    ¬ InstallsAtomically sha256Hex toLowerCase ⟨true, lost, true, true, true⟩ pack installed := by
  repeat rw [String.toList_ofList]
  intro model config modelHash configHash sha256Hex toLowerCase pack served lost installed h
  have hharmed := (h.of_rejected (by decide +kernel)).verified pack.id (by decide +kernel)
  exact absurd hharmed (by decide +kernel)

end VoicePackInstaller

end VoxTranslate.Client
