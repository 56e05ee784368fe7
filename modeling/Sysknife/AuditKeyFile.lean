import Sysknife.AuditChain
import Sysknife.Lib.Interaction

/-!
# The audit key file

A daemon loads the key of the audit chain when it starts, and makes one where there is
none. Any number of daemons may start at once, each may stop at any point, and a write
may take a part of its bytes only; the file that one of them creates is the only thing
they share.
-/

namespace Sysknife

open Interaction

/-- The bytes of a new key. -/
abbrev KeyMaterial := { bytes : List UInt8 // bytes.length = 32 }

structure KeyFile where
  mode : Nat
  bytes : List UInt8

inductive AuditKeyError where
  | io (path : String) (source : String)
  | unsafePermissions (path : String) (mode : Nat)
  | keyTooShort (path : String) (len : Nat)
  deriving DecidableEq

/-! ## Operations -/

inductive KeyOp where
  | pathExists
  | parentExists
  /-- `DirBuilder::create`, recursive and with mode 0700. -/
  | createParent
  /-- `fill_random` -/
  | fillRandom
  /-- `OpenOptions::open` with `create_new` and mode 0600. -/
  | createNew
  /-- One `write` on the file that was created. -/
  | write (rest : List UInt8)
  | syncAll
  | metadata
  | read

@[reducible] def KeyOp.Answer : KeyOp → Type
  | .pathExists => Bool
  | .parentExists => Bool
  | .createParent => Except String Unit
  | .fillRandom => Except String KeyMaterial
  | .createNew => Except String Unit
  | .write _ => Except String Nat
  | .syncAll => Except String Unit
  | .metadata => Except String Nat
  | .read => Except String (List UInt8)

abbrev KeyProg := Prog KeyOp KeyOp.Answer

def keyOp (o : KeyOp) : KeyProg o.Answer := Prog.perform o

@[simp] theorem keyOp_bind {α : Type} (o : KeyOp) (f : o.Answer → KeyProg α) :
    @bind KeyProg _ (no_index o.Answer) α (keyOp o) f = .op o f := rfl

/-- What one operation meets outside: whether it fails, what the directory and the random
source give, the process's umask, and how much a write takes. -/
structure KeyEnv where
  failure : Option String
  parent : Bool
  random : KeyMaterial
  umask : Nat
  taken : Nat

/-- The mode of a file that is opened for its owner alone, less the bits of the umask. -/
def newFileMode (umask : Nat) : Nat := 0o600 &&& (0o777 ^^^ (umask &&& 0o777))

def KeyEnv.answer {α : Type} (env : KeyEnv) (a : α) : Except String α :=
  match env.failure with
  | some e => .error e
  | none => .ok a

def KeyOp.exec (env : KeyEnv) (file : Option KeyFile) : (o : KeyOp) → o.Answer × Option KeyFile
  -- a file that cannot be looked at is taken for missing
  | .pathExists => (env.failure.isNone && file.isSome, file)
  | .parentExists => (env.parent, file)
  | .createParent => (env.answer (), file)
  | .fillRandom => (env.answer env.random, file)
  | .createNew =>
    match env.failure, file with
    | some e, file => (.error e, file)
    | none, some file => (.error "File exists (os error 17)", some file)
    | none, none => (.ok (), some ⟨newFileMode env.umask, []⟩)
  | .write rest =>
    match env.failure with
    | some e => (.error e, file)
    | none => (.ok (min env.taken rest.length),
        file.map fun f => { f with bytes := f.bytes ++ rest.take (min env.taken rest.length) })
  | .syncAll => (env.answer (), file)
  | .metadata =>
    match file with
    | none => (.error (env.failure.getD "No such file or directory (os error 2)"), none)
    | some f => (env.answer f.mode, some f)
  | .read =>
    match file with
    | none => (.error (env.failure.getD "No such file or directory (os error 2)"), none)
    | some f => (env.answer f.bytes, some f)

/-! ## Loading -/

section Load
variable (path : String) (parent : Option String)

/-- `write_all` -/
def writeAll : List UInt8 → KeyProg (Except String Unit)
  | [] => return .ok ()
  | b :: rest => do
    match ← keyOp (.write (b :: rest)) with
    | .error e => return .error e
    | .ok 0 => return .error "failed to write whole buffer"
    | .ok (k + 1) => writeAll (rest.drop k)
termination_by bytes => bytes.length
decreasing_by
  rw [List.length_drop, List.length_cons]
  omega

/-- `generate_key_at` from the random bytes on. -/
def writeKeyAt (bytes : KeyMaterial) : KeyProg (Except AuditKeyError Unit) := do
  match ← keyOp .createNew with
  | .error e => return .error (.io path e)
  | .ok () =>
    match ← writeAll bytes.val with
    | .error e => return .error (.io path e)
    | .ok () =>
      match ← keyOp .syncAll with
      | .error e => return .error (.io path e)
      | .ok () => return .ok ()

def makeKeyAt : KeyProg (Except AuditKeyError Unit) := do
  match ← keyOp .fillRandom with
  | .error e => return .error (.io path e)
  | .ok bytes => writeKeyAt path bytes

def generateKeyAt : KeyProg (Except AuditKeyError Unit) := do
  match parent with
  | none => makeKeyAt path
  | some parent =>
    if ← keyOp .parentExists then makeKeyAt path
    else match ← keyOp .createParent with
      | .error e => return .error (.io parent e)
      | .ok () => makeKeyAt path

/-- `load_or_generate` once the file should be there. -/
def loadKey : KeyProg (Except AuditKeyError AuditKey) := do
  match ← keyOp .metadata with
  | .error e => return .error (.io path e)
  | .ok fileMode =>
    if (fileMode &&& 0o777) &&& 0o077 ≠ 0 then
      return .error (.unsafePermissions path (fileMode &&& 0o777))
    else match ← keyOp .read with
      | .error e => return .error (.io path e)
      | .ok keyBytes =>
        if keyBytes.length < 32 then return .error (.keyTooShort path keyBytes.length)
        else return .ok ⟨currentKeyId, keyBytes, rfl⟩

def loadOrGenerate : KeyProg (Except AuditKeyError AuditKey) := do
  if ← keyOp .pathExists then loadKey path
  else match ← generateKeyAt path parent with
    | .error e => return .error e
    | .ok () => loadKey path

/-- Any number of daemons that load the key, one operation at a time in any order. -/
def keySystem (initial : Option KeyFile) :
    System (Option KeyFile) KeyEnv Unit KeyOp KeyOp.Answer
      (fun _ => Except AuditKeyError AuditKey) where
  init := initial
  exec := KeyOp.exec
  body _ := loadOrGenerate path parent
  mayStart _ _ := true

/-- The load `i` has come back with this key. -/
def HasKey (initial : Option KeyFile) (inputs : List (Input KeyEnv Unit)) (i : Nat)
    (key : AuditKey) : Prop :=
  ((keySystem path parent initial).run inputs).threads[i]? = some ⟨(), .ret (.ok key)⟩

end Load

/-! ## How far a load has got -/

/-- No bit for the group or for others. -/
def OwnerOnly (mode : Nat) : Prop := (mode &&& 0o777) &&& 0o077 = 0

theorem newFileMode_ownerOnly (umask : Nat) : OwnerOnly (newFileMode umask) := by
  unfold OwnerOnly newFileMode
  rw [Nat.and_assoc, Nat.and_comm 0o600, Nat.and_assoc]
  exact Nat.and_zero _

structure KeyProgress where
  drawn : Option KeyMaterial := none
  created : Bool := false
  /-- How many bytes have been written. -/
  written : Nat := 0
  mode : Option Nat := none
  content : Option (List UInt8) := none

def KeyOp.Expected (p : KeyProgress) : KeyOp → Prop
  | .fillRandom => p.created = false
  | .createNew => p.created = false ∧ ∃ bytes, p.drawn = some bytes ∧ p.written = 0
  | .write rest => p.created = true ∧ ∃ bytes, p.drawn = some bytes ∧
      rest = bytes.val.drop p.written
  | _ => True

def KeyProgress.next (p : KeyProgress) : (o : KeyOp) → o.Answer → KeyProgress
  | .fillRandom, .ok bytes => { p with drawn := some bytes }
  | .createNew, .ok () => { p with created := true }
  | .write _, .ok taken => { p with written := p.written + taken }
  | .metadata, .ok mode => { p with mode := some mode }
  | .read, .ok bytes => { p with content := some bytes }
  | _, _ => p

def keyMonitor : Monitor KeyProgress KeyOp KeyOp.Answer where
  guard := KeyOp.Expected
  next := KeyProgress.next

/-- What a load that succeeds has seen: a file for its owner alone, and enough bytes in it. -/
def KeyProgress.Loaded (p : KeyProgress) (out : Except AuditKeyError AuditKey) : Prop :=
  ∀ key, out = .ok key → p.content = some key.keyBytes ∧ 32 ≤ key.keyBytes.length ∧
    ∃ mode, p.mode = some mode ∧ OwnerOnly mode

section Load
variable {path : String} {p : KeyProgress}

theorem loaded_error (e : AuditKeyError) : p.Loaded (.error e) := fun _ h => by cases h

theorem loadKey_safe : keyMonitor.Safe KeyProgress.Loaded p (loadKey path) := by
  refine ⟨trivial, fun mode => ?_⟩
  cases mode with
  | error e => exact loaded_error _
  | ok mode =>
    show keyMonitor.Safe _ _ (if _ then _ else _)
    split
    · exact loaded_error _
    · rename_i hmode
      refine ⟨trivial, fun content => ?_⟩
      cases content with
      | error e => exact loaded_error _
      | ok bytes =>
        show keyMonitor.Safe _ _ (if _ then _ else _)
        split
        · exact loaded_error _
        · rename_i hlength
          intro key hkey
          cases hkey
          exact ⟨rfl, Nat.not_lt.mp hlength, mode, rfl, not_not.mp hmode⟩

theorem writeAll_safe {bytes : KeyMaterial} (rest : List UInt8) (hcreated : p.created = true)
    (hdrawn : p.drawn = some bytes) (hrest : rest = bytes.val.drop p.written) :
    keyMonitor.Safe (fun _ _ => True) p (writeAll rest) := by
  induction rest using writeAll.induct generalizing p with
  | case1 =>
    rw [writeAll]
    trivial
  | case2 b rest ih =>
    rw [writeAll]
    refine ⟨⟨hcreated, bytes, hdrawn, hrest⟩, fun answer => ?_⟩
    cases answer with
    | error e => trivial
    | ok taken =>
      cases taken with
      | zero => trivial
      | succ k =>
        refine ih k hcreated hdrawn ?_
        have hdrop := congrArg (List.drop (k + 1)) hrest
        rw [List.drop_succ_cons, List.drop_drop] at hdrop
        exact hdrop

theorem makeKeyAt_safe (hnew : p = {}) :
    keyMonitor.Safe (fun _ _ => True) p (makeKeyAt path) := by
  subst hnew
  refine ⟨rfl, fun answer => ?_⟩
  cases answer with
  | error e => trivial
  | ok bytes =>
    refine ⟨⟨rfl, bytes, rfl, rfl⟩, fun created => ?_⟩
    cases created with
    | error e => trivial
    | ok u =>
      have hwrite : keyMonitor.Safe (fun _ _ => True)
          { drawn := some bytes, created := true } (writeAll bytes.val) :=
        writeAll_safe bytes.val rfl rfl rfl
      refine hwrite.bind fun q written _ => ?_
      cases written with
      | error e => trivial
      | ok u =>
        refine ⟨trivial, fun synced => ?_⟩
        cases synced <;> trivial

theorem generateKeyAt_safe {parent : Option String} :
    keyMonitor.Safe (fun _ _ => True) {} (generateKeyAt path parent) := by
  unfold generateKeyAt
  cases parent with
  | none => exact makeKeyAt_safe rfl
  | some parent =>
    refine ⟨trivial, fun found => ?_⟩
    cases found with
    | true => exact makeKeyAt_safe rfl
    | false =>
      refine ⟨trivial, fun answer => ?_⟩
      cases answer with
      | error e => trivial
      | ok u => exact makeKeyAt_safe rfl

theorem loadOrGenerate_safe {parent : Option String} :
    keyMonitor.Safe KeyProgress.Loaded {} (loadOrGenerate path parent) := by
  refine ⟨trivial, fun found => ?_⟩
  cases found with
  | true => exact loadKey_safe
  | false =>
    refine generateKeyAt_safe.bind fun q generated _ => ?_
    cases generated with
    | error e => exact loaded_error _
    | ok u => exact loadKey_safe

end Load

/-! ## The file -/

/-- A file that was there is never written. -/
def Kept (f : KeyFile) (file : Option KeyFile) (progress : Nat → Option KeyProgress) : Prop :=
  file = some f ∧ ∀ i p, progress i = some p →
    p.created = false ∧ (∀ bytes, p.content = some bytes → bytes = f.bytes) ∧
      ∀ mode, p.mode = some mode → mode = f.mode

/-- A new file has one owner, and holds what that one has written of its random bytes. -/
structure Owned (f : KeyFile) (owner : Nat) (material : KeyMaterial)
    (progress : Nat → Option KeyProgress) : Prop where
  mode : OwnerOnly f.mode
  bytes : ∃ q, progress owner = some q ∧ q.created = true ∧ q.drawn = some material ∧
    f.bytes = material.val.take q.written
  only : ∀ i p, progress i = some p → p.created = true → i = owner
  content : ∀ i p, progress i = some p → ∀ bytes, p.content = some bytes → bytes <+: f.bytes

/-- There is no file yet, or a new one. -/
def Made (file : Option KeyFile) (progress : Nat → Option KeyProgress) : Prop :=
  (file = none ∧ ∀ i p, progress i = some p → p.created = false ∧ p.content = none) ∨
    ∃ f owner material, file = some f ∧ Owned f owner material progress

def KeyInvariant (initial file : Option KeyFile) (progress : Nat → Option KeyProgress) : Prop :=
  match initial with
  | some f => Kept f file progress
  | none => Made file progress

section Invariant
variable {f : KeyFile} {owner i : Nat} {material : KeyMaterial}
  {progress : Nat → Option KeyProgress} {p p' : KeyProgress} {env : KeyEnv}
  {initial file : Option KeyFile}

/-- A step of one load, seen from all of them. -/
theorem forall_update {γ : Type} {progress : Nat → Option γ} {p' : γ} {Q : Nat → γ → Prop}
    (h : ∀ j q, progress j = some q → Q j q) (hi : Q i p') :
    ∀ j q, Function.update progress i (some p') j = some q → Q j q := by
  intro j q hq
  by_cases hj : j = i
  · subst hj
    rw [Function.update_self] at hq
    cases hq
    exact hi
  · rw [Function.update_of_ne hj] at hq
    exact h j q hq

theorem Kept.start (h : Kept f file progress) :
    Kept f file (Function.update progress i (some {})) := by
  refine ⟨h.1, forall_update h.2 ⟨rfl, ?_, ?_⟩⟩
  · intro bytes hbytes
    cases hbytes
  · intro mode hmode
    cases hmode

theorem Kept.act (h : Kept f file progress) (hi : progress i = some p) {o : KeyOp}
    (hguard : o.Expected p) :
    Kept f (o.exec env file).2
      (Function.update progress i (some (p.next o (o.exec env file).1))) := by
  obtain ⟨rfl, hall⟩ := h
  have hold := hall i p hi
  cases o with
  | write rest =>
    obtain ⟨hcreated, -⟩ := hguard
    rw [hold.1] at hcreated
    cases hcreated
  | createNew =>
    cases hfailure : env.failure <;>
      (simp only [KeyOp.exec, hfailure, KeyProgress.next]; exact ⟨rfl, forall_update hall hold⟩)
  | metadata =>
    cases hfailure : env.failure with
    | some e =>
      simp only [KeyOp.exec, KeyEnv.answer, hfailure, KeyProgress.next]
      exact ⟨rfl, forall_update hall hold⟩
    | none =>
      simp only [KeyOp.exec, KeyEnv.answer, hfailure, KeyProgress.next]
      exact ⟨rfl, forall_update hall
        ⟨hold.1, hold.2.1, fun mode hmode => (Option.some.inj hmode).symm⟩⟩
  | read =>
    cases hfailure : env.failure with
    | some e =>
      simp only [KeyOp.exec, KeyEnv.answer, hfailure, KeyProgress.next]
      exact ⟨rfl, forall_update hall hold⟩
    | none =>
      simp only [KeyOp.exec, KeyEnv.answer, hfailure, KeyProgress.next]
      exact ⟨rfl, forall_update hall
        ⟨hold.1, fun bytes hbytes => (Option.some.inj hbytes).symm, hold.2.2⟩⟩
  | fillRandom =>
    cases hfailure : env.failure <;>
      (simp only [KeyOp.exec, KeyEnv.answer, hfailure, KeyProgress.next]
       exact ⟨rfl, forall_update hall hold⟩)
  | _ => exact ⟨rfl, forall_update hall hold⟩

theorem Owned.start (h : Owned f owner material progress) (hi : progress i = none) :
    Owned f owner material (Function.update progress i (some {})) := by
  refine ⟨h.mode, ?_, forall_update h.only fun hcreated => ?_, forall_update h.content ?_⟩
  · obtain ⟨q, hq, hrest⟩ := h.bytes
    have hne : owner ≠ i := fun howner => by
      rw [howner, hi] at hq
      cases hq
    exact ⟨q, (Function.update_of_ne hne ..).trans hq, hrest⟩
  · cases hcreated
  · intro bytes hbytes
    cases hbytes

/-- A step that writes nothing leaves the file to its owner. -/
theorem Owned.update (h : Owned f owner material progress) (hi : progress i = some p)
    (hcreated : p'.created = p.created) (hdrawn : p.created = true → p'.drawn = p.drawn)
    (hwritten : p'.written = p.written)
    (hcontent : p'.content = p.content ∨ p'.content = some f.bytes) :
    Owned f owner material (Function.update progress i (some p')) := by
  refine ⟨h.mode, ?_, forall_update h.only ?_, forall_update h.content ?_⟩
  · obtain ⟨q, hq, hqcreated, hqdrawn, hbytes⟩ := h.bytes
    by_cases howner : owner = i
    · subst howner
      obtain rfl := Option.some.inj (hi.symm.trans hq)
      refine ⟨p', Function.update_self .., hcreated.trans hqcreated,
        (hdrawn hqcreated).trans hqdrawn, ?_⟩
      rw [hwritten]
      exact hbytes
    · exact ⟨q, (Function.update_of_ne howner ..).trans hq, hqcreated, hqdrawn, hbytes⟩
  · exact fun hp => h.only i p hi (hcreated.symm.trans hp)
  · intro bytes hbytes
    rcases hcontent with hsame | hread
    · exact h.content i p hi bytes (hsame.symm.trans hbytes)
    · rw [hread] at hbytes
      cases hbytes
      exact List.prefix_rfl

/-- No more than the random bytes. -/
theorem Owned.short (h : Owned f owner material progress) : f.bytes.length ≤ 32 := by
  obtain ⟨q, -, -, -, hbytes⟩ := h.bytes
  rw [hbytes, List.length_take, material.property]
  exact Nat.min_le_right ..

theorem Owned.same (h : Owned f owner material progress) (hi : progress i = some p) :
    Owned f owner material (Function.update progress i (some p)) :=
  h.update hi rfl (fun _ => rfl) rfl (Or.inl rfl)

/-- The owner writes on where it stopped, as much as is taken. -/
theorem Owned.write (h : Owned f owner material progress) (hi : progress i = some p)
    {rest : List UInt8} (hguard : (KeyOp.write rest).Expected p) (taken : Nat) :
    Owned { f with bytes := f.bytes ++ rest.take (min taken rest.length) } owner material
      (Function.update progress i
        (some { p with written := p.written + min taken rest.length })) := by
  obtain ⟨hcreated, drawn, hdrawn, rfl⟩ := hguard
  obtain rfl := h.only i p hi hcreated
  obtain ⟨q, hq, hqcreated, hqdrawn, hbytes⟩ := h.bytes
  obtain rfl := Option.some.inj (hi.symm.trans hq)
  obtain rfl := Option.some.inj (hdrawn.symm.trans hqdrawn)
  have hgrows : ∀ written : List UInt8, f.bytes <+: f.bytes ++ written := List.prefix_append _
  refine ⟨h.mode, ⟨_, Function.update_self .., hcreated, hdrawn, ?_⟩,
    forall_update h.only fun _ => rfl, forall_update ?_ ?_⟩
  · rw [hbytes]
    exact List.take_add.symm
  · exact fun j q hj bytes hread => (h.content j q hj bytes hread).trans (hgrows _)
  · exact fun bytes hread => (h.content i p hi bytes hread).trans (hgrows _)

theorem Owned.act (h : Owned f owner material progress) (hi : progress i = some p) {o : KeyOp}
    (hguard : o.Expected p) :
    ∃ f', (o.exec env (some f)).2 = some f' ∧ Owned f' owner material
      (Function.update progress i (some (p.next o (o.exec env (some f)).1))) := by
  cases o with
  | write rest =>
    cases hfailure : env.failure with
    | some e =>
      simp only [KeyOp.exec, hfailure, KeyProgress.next]
      exact ⟨f, rfl, h.same hi⟩
    | none =>
      simp only [KeyOp.exec, hfailure, KeyProgress.next]
      exact ⟨_, rfl, h.write hi hguard env.taken⟩
  | createNew =>
    cases hfailure : env.failure <;>
      (simp only [KeyOp.exec, hfailure, KeyProgress.next]; exact ⟨f, rfl, h.same hi⟩)
  | metadata =>
    cases hfailure : env.failure with
    | some e =>
      simp only [KeyOp.exec, KeyEnv.answer, hfailure, KeyProgress.next]
      exact ⟨f, rfl, h.same hi⟩
    | none =>
      simp only [KeyOp.exec, KeyEnv.answer, hfailure, KeyProgress.next]
      exact ⟨f, rfl, h.update hi rfl (fun _ => rfl) rfl (Or.inl rfl)⟩
  | read =>
    cases hfailure : env.failure with
    | some e =>
      simp only [KeyOp.exec, KeyEnv.answer, hfailure, KeyProgress.next]
      exact ⟨f, rfl, h.same hi⟩
    | none =>
      simp only [KeyOp.exec, KeyEnv.answer, hfailure, KeyProgress.next]
      exact ⟨f, rfl, h.update hi rfl (fun _ => rfl) rfl (Or.inr rfl)⟩
  | fillRandom =>
    cases hfailure : env.failure with
    | some e =>
      simp only [KeyOp.exec, KeyEnv.answer, hfailure, KeyProgress.next]
      exact ⟨f, rfl, h.same hi⟩
    | none =>
      -- who has created the file draws no more
      have hnew : p.created = false := hguard
      simp only [KeyOp.exec, KeyEnv.answer, hfailure, KeyProgress.next]
      refine ⟨f, rfl, h.update hi rfl (fun hcreated => ?_) rfl (Or.inl rfl)⟩
      rw [hnew] at hcreated
      cases hcreated
  | _ => exact ⟨f, rfl, h.same hi⟩

/-- The load that creates the file becomes its owner. -/
theorem Owned.created (hi : progress i = some p) (hguard : KeyOp.createNew.Expected p)
    (hnone : ∀ j q, progress j = some q → q.created = false ∧ q.content = none)
    (umask : Nat) :
    ∃ material, Owned ⟨newFileMode umask, []⟩ i material
      (Function.update progress i (some { p with created := true })) := by
  obtain ⟨-, material, hdrawn, hwritten⟩ := hguard
  refine ⟨material, newFileMode_ownerOnly umask,
    ⟨_, Function.update_self .., rfl, hdrawn, ?_⟩, forall_update ?_ fun _ => rfl,
    forall_update ?_ ?_⟩
  · show [] = material.val.take p.written
    rw [hwritten, List.take_zero]
  · intro j q hj hcreated
    rw [(hnone j q hj).1] at hcreated
    cases hcreated
  · intro j q hj bytes hread
    rw [(hnone j q hj).2] at hread
    cases hread
  · intro bytes hread
    have hcontent : p.content = some bytes := hread
    rw [(hnone i p hi).2] at hcontent
    cases hcontent

theorem Made.start (h : Made file progress) (hi : progress i = none) :
    Made file (Function.update progress i (some {})) := by
  rcases h with ⟨hfile, hnone⟩ | ⟨f, owner, material, hfile, howned⟩
  · exact Or.inl ⟨hfile, forall_update hnone ⟨rfl, rfl⟩⟩
  · exact Or.inr ⟨f, owner, material, hfile, howned.start hi⟩

theorem Made.act (h : Made file progress) (hi : progress i = some p) {o : KeyOp}
    (hguard : o.Expected p) :
    Made (o.exec env file).2
      (Function.update progress i (some (p.next o (o.exec env file).1))) := by
  rcases h with ⟨rfl, hnone⟩ | ⟨f, owner, material, rfl, howned⟩
  · have hold := hnone i p hi
    cases o with
    | write rest =>
      obtain ⟨hcreated, -⟩ := hguard
      rw [hold.1] at hcreated
      cases hcreated
    | createNew =>
      cases hfailure : env.failure with
      | some e =>
        simp only [KeyOp.exec, hfailure, KeyProgress.next]
        exact Or.inl ⟨rfl, forall_update hnone hold⟩
      | none =>
        simp only [KeyOp.exec, hfailure, KeyProgress.next]
        obtain ⟨material, howned⟩ := Owned.created hi hguard hnone env.umask
        exact Or.inr ⟨_, i, material, rfl, howned⟩
    | fillRandom =>
      cases hfailure : env.failure <;>
        (simp only [KeyOp.exec, KeyEnv.answer, hfailure, KeyProgress.next]
         exact Or.inl ⟨rfl, forall_update hnone hold⟩)
    | _ => exact Or.inl ⟨rfl, forall_update hnone hold⟩
  · obtain ⟨f', hfile, howned'⟩ := howned.act hi hguard
    exact Or.inr ⟨f', owner, material, hfile, howned'⟩

theorem keyInvariant_initial (initial : Option KeyFile) :
    KeyInvariant initial initial fun _ => none := by
  cases initial with
  | none => exact Or.inl ⟨rfl, fun i p h => by cases h⟩
  | some f => exact ⟨rfl, fun i p h => by cases h⟩

theorem KeyInvariant.start (h : KeyInvariant initial file progress) (hi : progress i = none) :
    KeyInvariant initial file (Function.update progress i (some {})) := by
  cases initial with
  | none => exact Made.start h hi
  | some f => exact Kept.start h

theorem KeyInvariant.act (h : KeyInvariant initial file progress) (hi : progress i = some p)
    {o : KeyOp} (hguard : o.Expected p) :
    KeyInvariant initial (o.exec env file).2
      (Function.update progress i (some (p.next o (o.exec env file).1))) := by
  cases initial with
  | none => exact Made.act h hi hguard
  | some f => exact Kept.act h hi hguard

/-- A load that has seen enough has read the file as it is. -/
theorem KeyInvariant.loaded (h : KeyInvariant initial file progress) (hi : progress i = some p)
    {key : AuditKey} (hloaded : p.Loaded (.ok key)) :
    ∃ f, file = some f ∧ f.bytes = key.keyBytes ∧ 32 ≤ key.keyBytes.length ∧
      OwnerOnly f.mode := by
  obtain ⟨hcontent, hlength, mode, hmode, howner⟩ := hloaded key rfl
  cases initial with
  | some f =>
    obtain ⟨hfile, hall⟩ := h
    obtain ⟨-, hbytes, hmodes⟩ := hall i p hi
    refine ⟨f, hfile, (hbytes _ hcontent).symm, hlength, ?_⟩
    rw [← hmodes mode hmode]
    exact howner
  | none =>
    rcases h with ⟨-, hnone⟩ | ⟨f, owner, material, hfile, howned⟩
    · rw [(hnone i p hi).2] at hcontent
      cases hcontent
    · -- a part of the 32 random bytes that is long enough is all of them
      have hpart := howned.content i p hi _ hcontent
      exact ⟨f, hfile, (hpart.eq_of_length_le (howned.short.trans hlength)).symm, hlength,
        howned.mode⟩

end Invariant

section System
variable {path : String} {parent : Option String} {initial : Option KeyFile}

theorem run_keyInvariant (path : String) (parent : Option String) (initial : Option KeyFile)
    (inputs : List (Input KeyEnv Unit)) :
    KeyInvariant initial ((keySystem path parent initial).run inputs).shared
      (System.progress keyMonitor (fun _ => {}) ((keySystem path parent initial).run inputs)) := by
  refine System.progress_induction (S := keySystem path parent initial) (m := keyMonitor)
    (I := fun _ file progress => KeyInvariant initial file progress)
    (fun _ => (loadOrGenerate_safe : keyMonitor.Safe KeyProgress.Loaded {} _)) ?_ ?_ ?_ inputs
  · exact keyInvariant_initial initial
  · exact fun _ _ _ _ _ h hi => h.start hi
  · exact fun _ _ _ _ _ _ _ h hi hguard => h.act hi hguard

/-- What a load has drawn was given to it. -/
theorem drawn_mem (inputs : List (Input KeyEnv Unit)) {i : Nat} {p : KeyProgress}
    {material : KeyMaterial}
    (hi : System.progress keyMonitor (fun _ => {}) ((keySystem path parent initial).run inputs) i =
      some p) (hdrawn : p.drawn = some material) :
    ⟨.fillRandom, .ok material⟩ ∈ eventsOf i ((keySystem path parent initial).run inputs).log := by
  obtain ⟨⟨tag, prog⟩, hthread, rfl⟩ := Option.map_eq_some_iff.mp hi
  have htrace := System.thread_trace (S := keySystem path parent initial) inputs i tag prog hthread
  refine Monitor.Safe.trace_induction (m := keyMonitor) (g := {})
    (I := fun p evs => p.drawn = some material → ⟨.fillRandom, .ok material⟩ ∈ evs)
    loadOrGenerate_safe (fun h => by cases h) ?_ htrace hdrawn
  intro p evs o answer ih _ hnext
  have hold : p.drawn = some material → ⟨.fillRandom, .ok material⟩ ∈ evs ++ [⟨o, answer⟩] :=
    fun h => List.mem_append_left _ (ih h)
  cases o with
  | fillRandom =>
    cases answer with
    | error e => exact hold hnext
    | ok drawn =>
      obtain rfl := Option.some.inj hnext
      exact List.mem_append_right _ (List.mem_singleton_self _)
  | createNew => cases answer <;> exact hold hnext
  | write rest => cases answer <;> exact hold hnext
  | metadata => cases answer <;> exact hold hnext
  | read => cases answer <;> exact hold hnext
  | _ => exact hold hnext

/-- A load that succeeds has read the file as it is. -/
theorem loaded_file (inputs : List (Input KeyEnv Unit)) {i : Nat} {key : AuditKey}
    (hi : HasKey path parent initial inputs i key) :
    ∃ f, ((keySystem path parent initial).run inputs).shared = some f ∧
      f.bytes = key.keyBytes ∧ 32 ≤ key.keyBytes.length ∧ OwnerOnly f.mode := by
  have hsafe : keyMonitor.Safe KeyProgress.Loaded _ (.ret (.ok key)) :=
    loadOrGenerate_safe.of_trace (System.thread_trace inputs i () _ hi)
  exact (run_keyInvariant path parent initial inputs).loaded
    (System.progress_of_thread (m := keyMonitor) (g := fun _ => {}) hi) hsafe

/-- However many daemons start, in whatever order their operations fall and wherever they
stop or fail: all that have a key have the same one, it is what the file holds, and the
file is for its owner alone. A file that was there is never touched; a new one is never
open to others and holds nothing but the random bytes of one of them. -/
theorem audit_key_agreed (path : String) (parent : Option String) (initial : Option KeyFile)
    (inputs : List (Input KeyEnv Unit)) :
    let P := (keySystem path parent initial).run inputs
    (∀ i key, HasKey path parent initial inputs i key →
      ∃ f, P.shared = some f ∧ f.bytes = key.keyBytes ∧ 32 ≤ key.keyBytes.length ∧
        OwnerOnly f.mode) ∧
    (∀ i j key key', HasKey path parent initial inputs i key →
      HasKey path parent initial inputs j key' → key = key') ∧
    match initial with
    | some f => P.shared = some f
    | none => ∀ f, P.shared = some f → OwnerOnly f.mode ∧ ∃ i, ∃ material : KeyMaterial,
        ⟨.fillRandom, .ok material⟩ ∈ eventsOf i P.log ∧ f.bytes <+: material.val := by
  intro P
  refine ⟨fun i key hi => loaded_file inputs hi, fun i j key key' hi hj => ?_, ?_⟩
  · obtain ⟨f, hf, hbytes, -, -⟩ := loaded_file inputs hi
    obtain ⟨f', hf', hbytes', -, -⟩ := loaded_file inputs hj
    obtain rfl := Option.some.inj (hf.symm.trans hf')
    have hsame : key.keyBytes = key'.keyBytes := hbytes.symm.trans hbytes'
    obtain ⟨keyId, keyBytes, rfl⟩ := key
    obtain ⟨keyId', keyBytes', rfl⟩ := key'
    obtain rfl : keyBytes = keyBytes' := hsame
    rfl
  · have hinvariant := run_keyInvariant path parent initial inputs
    cases initial with
    | some f => exact hinvariant.1
    | none =>
      intro f hf
      rcases hinvariant with ⟨hnone, -⟩ | ⟨f', owner, material, hfile, howned⟩
      · rw [hnone] at hf
        cases hf
      · obtain rfl := Option.some.inj (hfile.symm.trans hf)
        obtain ⟨q, hq, -, hdrawn, hbytes⟩ := howned.bytes
        refine ⟨howned.mode, owner, material, drawn_mem inputs hq hdrawn, ?_⟩
        rw [hbytes]
        exact List.take_prefix _ _

end System

end Sysknife
