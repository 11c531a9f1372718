import Mathlib.Data.List.Basic
import Mathlib.Logic.Function.Basic
import Mathlib.Tactic.Common

/-!
# A file that is replaced as a whole

A content is written to a new file beside the one that it replaces, brought to the disk, and renamed over it. What is true of the
content before and of the new one is true of the file however the replacement ends, and after a power cut.
-/

namespace AtomicFile

variable {ν β : Type} [DecidableEq ν]

/-! ### Files on a disk -/

/-- What a file holds, and whether a power cut leaves it. -/
structure Held (β : Type) where
  content : List β
  synced : Bool

/-- The files of a directory: as the processes see them, and as its entries are on the disk. -/
structure Disk (ν β : Type) where
  live : ν → Option (Held β)
  kept : ν → Option (Held β)

inductive Op (ν β : Type) where
  | create (temp : ν)
  | write (temp : ν) (piece : List β)
  | fsync (temp : ν)
  | replace (temp path : ν)
  | syncDirectory
  | remove (temp : ν)

/-- What an operation does; where the directory is `journaled`, a rename is on the disk when it returns. -/
def Op.apply (journaled : Bool) (disk : Disk ν β) : Op ν β → Disk ν β
  | .create temp => { disk with live := Function.update disk.live temp (some ⟨[], false⟩) }
  | .write temp piece =>
      { disk with live := Function.update disk.live temp ((disk.live temp).map fun held => ⟨held.content ++ piece, false⟩) }
  | .fsync temp => { disk with live := Function.update disk.live temp ((disk.live temp).map fun held => ⟨held.content, true⟩) }
  | .replace temp path =>
      match disk.live temp with
      | none => disk
      | some held =>
          { live := Function.update (Function.update disk.live temp none) path (some held)
            kept := if journaled then Function.update disk.kept path (some held) else disk.kept }
  | .syncDirectory => { disk with kept := disk.live }
  | .remove temp => { disk with live := Function.update disk.live temp none }

def applyAll (journaled : Bool) (ops : List (Op ν β)) (disk : Disk ν β) : Disk ν β := ops.foldl (Op.apply journaled) disk

/-- The new file is written and brought to the disk. -/
def writeOps (temp : ν) (content : List β) : List (Op ν β) := [.create temp, .write temp content, .fsync temp]

/-- A replacement; where `syncs`, the directory is brought to the disk at its end. -/
def replaceOps (syncs : Bool) (temp path : ν) (content : List β) : List (Op ν β) :=
  writeOps temp content ++ (.replace temp path :: if syncs then [.syncDirectory] else [])

/-- What a replacement that is interrupted has done: fewer operations, or a part of the write. -/
def Interrupted (syncs : Bool) (temp path : ν) (content : List β) (ops : List (Op ν β)) : Prop :=
  (ops <+: replaceOps syncs temp path content ∧ ops ≠ replaceOps syncs temp path content)
    ∨ ∃ piece, piece <+: content ∧ ops = [.create temp, .write temp piece]

/-- What a power cut leaves of a file: all of it where it was on the disk, and anything where it was not. -/
def Held.Leaves (held after : Held β) : Prop := after.synced = true ∧ (held.synced = true → after.content = held.content)

/-- A power cut leaves each entry as the processes saw it, or as it was on the disk. -/
structure PowerCut (disk after : Disk ν β) : Prop where
  entries : ∀ name, ∃ entry, (entry = disk.live name ∨ entry = disk.kept name) ∧ Option.Rel Held.Leaves entry (after.live name)
  kept : after.kept = after.live

/-- An operation on other files. -/
def Op.Elsewhere (path : ν) : Op ν β → Prop
  | .create temp => temp ≠ path
  | .write temp _ => temp ≠ path
  | .fsync temp => temp ≠ path
  | .replace temp target => temp ≠ path ∧ target ≠ path
  | .syncDirectory => True
  | .remove temp => temp ≠ path

/-- What happens to the disk beside the replacements of a file. -/
inductive Outside (journaled : Bool) (path : ν) : Disk ν β → Disk ν β → Prop
  | elsewhere (disk : Disk ν β) (op : Op ν β) : op.Elsewhere path → Outside journaled path disk (op.apply journaled disk)
  /-- An entry reaches the disk by itself. -/
  | flushed (disk : Disk ν β) (name : ν) :
      Outside journaled path disk { disk with kept := Function.update disk.kept name (disk.live name) }
  | powerCut {disk after : Disk ν β} : PowerCut disk after → Outside journaled path disk after

/-! ### What is true of the file -/

/-- The content is on the disk, and what is asked of it is true. -/
def Sound (P : Option (List β) → Prop) : Option (Held β) → Prop
  | none => P none
  | some held => held.synced = true ∧ P (some held.content)

/-- What is asked is true of the file as the processes see it, and as it is on the disk. -/
structure Holds (P : Option (List β) → Prop) (path : ν) (disk : Disk ν β) : Prop where
  live : Sound P (disk.live path)
  kept : Sound P (disk.kept path)

variable {journaled syncs : Bool} {P Q : Option (List β) → Prop} {path temp : ν} {content : List β} {disk : Disk ν β}

theorem Sound.imp (himp : ∀ held, P held → Q held) {entry : Option (Held β)} (h : Sound P entry) : Sound Q entry := by
  cases entry with
  | none => exact himp _ h
  | some held => exact ⟨h.1, himp _ h.2⟩

theorem Sound.read {entry : Option (Held β)} (h : Sound P entry) : P (entry.map Held.content) := by
  cases entry with
  | none => exact h
  | some held => exact h.2

omit [DecidableEq ν] in
theorem Holds.imp (himp : ∀ held, P held → Q held) (h : Holds P path disk) : Holds Q path disk :=
  ⟨h.live.imp himp, h.kept.imp himp⟩

/-- An operation on other files leaves what the processes see of the file, and brings at most that to the disk. -/
theorem apply_elsewhere {op : Op ν β} (hop : op.Elsewhere path) (journaled : Bool) (disk : Disk ν β) :
    (op.apply journaled disk).live path = disk.live path
      ∧ ((op.apply journaled disk).kept path = disk.kept path ∨ (op.apply journaled disk).kept path = disk.live path) := by
  cases op with
  | create temp => exact ⟨Function.update_of_ne (Ne.symm hop) _ _, Or.inl rfl⟩
  | write temp piece => exact ⟨Function.update_of_ne (Ne.symm hop) _ _, Or.inl rfl⟩
  | fsync temp => exact ⟨Function.update_of_ne (Ne.symm hop) _ _, Or.inl rfl⟩
  | remove temp => exact ⟨Function.update_of_ne (Ne.symm hop) _ _, Or.inl rfl⟩
  | syncDirectory => exact ⟨rfl, Or.inr rfl⟩
  | replace temp target =>
      obtain ⟨htemp, htarget⟩ := hop
      rw [Op.apply]
      split
      · exact ⟨rfl, Or.inl rfl⟩
      · refine ⟨?_, Or.inl ?_⟩
        · dsimp only
          rw [Function.update_of_ne (Ne.symm htarget), Function.update_of_ne (Ne.symm htemp)]
        · dsimp only
          split
          · exact Function.update_of_ne (Ne.symm htarget) _ _
          · rfl

theorem Holds.apply {op : Op ν β} (hop : op.Elsewhere path) (h : Holds P path disk) : Holds P path (op.apply journaled disk) := by
  obtain ⟨hlive, hkept⟩ := apply_elsewhere hop journaled disk
  refine ⟨hlive ▸ h.live, ?_⟩
  rcases hkept with hkept | hkept
  · exact hkept ▸ h.kept
  · exact hkept ▸ h.live

theorem Holds.applyAll {ops : List (Op ν β)} (hops : ∀ op ∈ ops, op.Elsewhere path) (h : Holds P path disk) :
    Holds P path (applyAll journaled ops disk) := by
  induction ops generalizing disk with
  | nil => exact h
  | cons op ops ih => exact ih (fun other hmem => hops other (.tail _ hmem)) (h.apply (hops op (.head _)))

theorem applyAll_append (first second : List (Op ν β)) (disk : Disk ν β) :
    applyAll journaled (first ++ second) disk = applyAll journaled second (applyAll journaled first disk) :=
  List.foldl_append

omit [DecidableEq ν] in
theorem writeOps_elsewhere (hne : temp ≠ path) (content : List β) : ∀ op ∈ writeOps temp content, op.Elsewhere path := by
  intro op hmem
  simp only [writeOps, List.mem_cons, List.not_mem_nil, or_false] at hmem
  rcases hmem with rfl | rfl | rfl <;> exact hne

/-- The new file is on the disk before it is renamed. -/
theorem live_writeOps (journaled : Bool) (temp : ν) (content : List β) (disk : Disk ν β) :
    (applyAll journaled (writeOps temp content) disk).live temp = some ⟨content, true⟩ := by
  simp [applyAll, writeOps, Op.apply]

/-- After the rename the file holds the new content; on the disk it does where renames are journaled, and else holds what it held. -/
theorem replace_holds (journaled : Bool) (path : ν) {held : Held β} (hlive : disk.live temp = some held) :
    ((Op.replace temp path).apply journaled disk).live path = some held
      ∧ ((Op.replace temp path).apply journaled disk).kept path = if journaled then some held else disk.kept path := by
  simp only [Op.apply, hlive]
  refine ⟨Function.update_self .., ?_⟩
  split
  · exact Function.update_self ..
  · rfl

omit [DecidableEq ν] in
/-- Less than a replacement: a part of the writing, or all but the last operation of a replacement that syncs the directory. -/
theorem interrupted_cases {ops : List (Op ν β)} (hne : temp ≠ path) (h : Interrupted syncs temp path content ops) :
    (∀ op ∈ ops, op.Elsewhere path) ∨ ops = writeOps temp content ++ [.replace temp path] := by
  rcases h with ⟨hbefore, hops⟩ | ⟨piece, -, rfl⟩
  · have hwriting : ops <+: writeOps temp content → ∀ op ∈ ops, op.Elsewhere path := fun hpart op hmem =>
      writeOps_elsewhere hne content op (hpart.subset hmem)
    have hrename : ops <+: writeOps temp content ++ [.replace temp path] →
        (∀ op ∈ ops, op.Elsewhere path) ∨ ops = writeOps temp content ++ [.replace temp path] := fun hpart =>
      (List.prefix_concat_iff.1 hpart).elim Or.inr fun hpart => Or.inl (hwriting hpart)
    cases syncs with
    | false => exact hrename hbefore
    | true =>
        have hwhole : replaceOps true temp path content
            = (writeOps temp content ++ [.replace temp path]) ++ [.syncDirectory] := by
          rw [replaceOps, List.append_assoc]
          rfl
        rw [hwhole] at hbefore hops
        exact hrename ((List.prefix_concat_iff.1 hbefore).resolve_left hops)
  · left
    intro op hmem
    simp only [List.mem_cons, List.not_mem_nil, or_false] at hmem
    rcases hmem with rfl | rfl <;> exact hne

/-! ### The rules -/

/-- After a replacement the file holds the new content, whatever it held. -/
theorem Holds.replaced (hdurable : syncs = true ∨ journaled = true) (hcontent : P (some content)) (temp : ν) (disk : Disk ν β) :
    Holds P path (AtomicFile.applyAll journaled (replaceOps syncs temp path content) disk) := by
  have hnew : Sound P (some ⟨content, true⟩) := ⟨rfl, hcontent⟩
  obtain ⟨hlive, hkept⟩ := replace_holds journaled path (live_writeOps journaled temp content disk)
  have hseen := hlive ▸ hnew
  rw [replaceOps, applyAll_append]
  cases syncs with
  | true => exact ⟨hseen, hseen⟩
  | false =>
      obtain rfl := hdurable.resolve_left Bool.false_ne_true
      exact ⟨hseen, hkept ▸ hnew⟩

/-- After an interrupted replacement the file holds what it held, or the new content. -/
theorem Holds.interrupted {ops : List (Op ν β)} (h : Holds P path disk) (hcontent : P (some content)) (hne : temp ≠ path)
    (hops : Interrupted syncs temp path content ops) (removed : Bool) :
    Holds P path (AtomicFile.applyAll journaled (ops ++ if removed then [.remove temp] else []) disk) := by
  have hdone : Holds P path (AtomicFile.applyAll journaled ops disk) := by
    rcases interrupted_cases hne hops with helsewhere | rfl
    · exact h.applyAll helsewhere
    · have hnew : Sound P (some ⟨content, true⟩) := ⟨rfl, hcontent⟩
      have hwritten : Holds P path (AtomicFile.applyAll journaled (writeOps temp content) disk) :=
        h.applyAll (writeOps_elsewhere hne content)
      obtain ⟨hlive, hkept⟩ := replace_holds journaled path (live_writeOps journaled temp content disk)
      rw [applyAll_append]
      refine ⟨hlive ▸ hnew, ?_⟩
      cases journaled with
      | true => exact hkept ▸ hnew
      | false => exact hkept ▸ hwritten.kept
  rw [applyAll_append]
  refine hdone.applyAll ?_
  intro op hmem
  cases removed with
  | false => cases hmem
  | true =>
      obtain rfl := List.mem_singleton.1 hmem
      exact hne

theorem Sound.powerCut {entry after : Option (Held β)} (h : Sound P entry) (hleaves : Option.Rel Held.Leaves entry after) :
    Sound P after := by
  cases hleaves with
  | none => exact h
  | some hheld => exact ⟨hheld.1, hheld.2 h.1 ▸ h.2⟩

/-- What is true of the file stays true whatever else happens to the disk. -/
theorem Holds.outside {after : Disk ν β} (h : Holds P path disk) (hstep : Outside journaled path disk after) : Holds P path after := by
  cases hstep with
  | elsewhere op hop => exact h.apply hop
  | flushed name =>
      refine ⟨h.live, ?_⟩
      dsimp only
      by_cases hname : path = name
      · subst hname
        rw [Function.update_self]
        exact h.live
      · rw [Function.update_of_ne hname]
        exact h.kept
  | powerCut hcut =>
      obtain ⟨entry, hentry, hleaves⟩ := hcut.entries path
      have hsound : Sound P entry := hentry.elim (· ▸ h.live) (· ▸ h.kept)
      exact ⟨hsound.powerCut hleaves, hcut.kept ▸ hsound.powerCut hleaves⟩

end AtomicFile
