import Mathlib.Logic.Function.Basic

namespace Foundation

/-- A directory names inodes, so that two names can share one file. -/
structure Directory (Name Content : Type) where
  entry : Name → Option Nat
  inode : Nat → Content
  fresh : Nat
  allocated : ∀ name number, entry name = some number → number < fresh

namespace Directory

variable {Name Content : Type}

/-- No name is in use; the content of an unused inode does not matter. -/
def empty (content : Content) : Directory Name Content where
  entry _ := none
  inode _ := content
  fresh := 0
  allocated _ _ found := by cases found

/-- The inode that a path lookup reaches, with its content. -/
def lookup (directory : Directory Name Content) (name : Name) : Option (Nat × Content) :=
  (directory.entry name).map fun number => (number, directory.inode number)

/-- A write in place changes the inode, hence every name that shares it. -/
def rewrite (directory : Directory Name Content) (name : Name) (change : Content → Content) :
    Directory Name Content :=
  match directory.entry name with
  | none => directory
  | some number =>
      { directory with inode := Function.update directory.inode number (change (directory.inode number)) }

theorem lookup_rewrite_self (directory : Directory Name Content) (name : Name)
    (change : Content → Content) :
    (directory.rewrite name change).lookup name =
      (directory.lookup name).map fun found => (found.1, change found.2) := by
  unfold rewrite
  split
  · rename_i missing
    simp [lookup, missing]
  · rename_i number found
    simp [lookup, found]

@[simp] theorem entry_rewrite (directory : Directory Name Content) (name : Name)
    (change : Content → Content) : (directory.rewrite name change).entry = directory.entry := by
  unfold rewrite
  split <;> rfl

variable [DecidableEq Name]

/-- A write to a temporary file and a rename put a new inode under the name. -/
def create (directory : Directory Name Content) (name : Name) (content : Content) :
    Directory Name Content where
  entry := Function.update directory.entry name (some directory.fresh)
  inode := Function.update directory.inode directory.fresh content
  fresh := directory.fresh + 1
  allocated := by
    intro other number found
    by_cases same : other = name
    · subst same
      rw [Function.update_self] at found
      cases found
      omega
    · rw [Function.update_of_ne same] at found
      have := directory.allocated other number found
      omega

def unlink (directory : Directory Name Content) (name : Name) : Directory Name Content where
  entry := Function.update directory.entry name none
  inode := directory.inode
  fresh := directory.fresh
  allocated := by
    intro other number found
    by_cases same : other = name
    · subst same
      simp at found
    · rw [Function.update_of_ne same] at found
      exact directory.allocated other number found

/-- A hard link gives a second name to the inode of the source. -/
def link (directory : Directory Name Content) (source target : Name) : Directory Name Content where
  entry := Function.update directory.entry target (directory.entry source)
  inode := directory.inode
  fresh := directory.fresh
  allocated := by
    intro other number found
    by_cases same : other = target
    · subst same
      rw [Function.update_self] at found
      exact directory.allocated source number found
    · rw [Function.update_of_ne same] at found
      exact directory.allocated other number found

/-- A rename between two names of one inode does nothing: both names stay. -/
def rename (directory : Directory Name Content) (source target : Name) : Directory Name Content :=
  if directory.entry source = none ∨ directory.entry source = directory.entry target then directory
  else (directory.link source target).unlink source

@[simp] theorem lookup_create_self (directory : Directory Name Content) (name : Name)
    (content : Content) :
    (directory.create name content).lookup name = some (directory.fresh, content) := by
  simp [lookup, create]

theorem lookup_create_of_ne (directory : Directory Name Content) {name other : Name}
    (content : Content) (different : other ≠ name) :
    (directory.create name content).lookup other = directory.lookup other := by
  simp only [lookup, create, Function.update_of_ne different]
  cases found : directory.entry other with
  | none => rfl
  | some number =>
      have old := directory.allocated other number found
      simp [Function.update_of_ne (Nat.ne_of_lt old)]

@[simp] theorem lookup_unlink_self (directory : Directory Name Content) (name : Name) :
    (directory.unlink name).lookup name = none := by
  simp [lookup, unlink]

theorem lookup_unlink_of_ne (directory : Directory Name Content) {name other : Name}
    (different : other ≠ name) :
    (directory.unlink name).lookup other = directory.lookup other := by
  simp [lookup, unlink, Function.update_of_ne different]

@[simp] theorem lookup_link_self (directory : Directory Name Content) (source target : Name) :
    (directory.link source target).lookup target = directory.lookup source := by
  simp [lookup, link]

theorem lookup_link_of_ne (directory : Directory Name Content) (source : Name)
    {target other : Name} (different : other ≠ target) :
    (directory.link source target).lookup other = directory.lookup other := by
  simp [lookup, link, Function.update_of_ne different]

/-- After the rename the target holds the source's content, also when nothing was moved. -/
theorem lookup_rename_target (directory : Directory Name Content) {source target : Name}
    {content : Nat × Content} (found : directory.lookup source = some content) :
    (directory.rename source target).lookup target = some content := by
  unfold rename
  split
  · rename_i still
    rcases still with missing | same
    · simp [lookup, missing] at found
    · rw [← found, lookup, lookup, same]
  · rename_i moved
    have different : target ≠ source := by
      rintro rfl
      exact moved (.inr rfl)
    rw [lookup_unlink_of_ne _ different, lookup_link_self, found]

theorem lookup_rename_of_ne (directory : Directory Name Content) {source target other : Name}
    (notSource : other ≠ source) (notTarget : other ≠ target) :
    (directory.rename source target).lookup other = directory.lookup other := by
  unfold rename
  split
  · rfl
  · rw [lookup_unlink_of_ne _ notSource, lookup_link_of_ne _ _ notTarget]

/-- The source is gone after a real move and keeps its content after a no-op. -/
theorem lookup_rename_source (directory : Directory Name Content) (source target : Name) :
    (directory.rename source target).lookup source = none ∨
      (directory.rename source target).lookup source = directory.lookup source := by
  unfold rename
  split
  · exact .inr rfl
  · exact .inl (lookup_unlink_self _ _)

omit [DecidableEq Name] in
/-- Two directories with the same names, contents and next number are one. -/
theorem ext_of_entry {left right : Directory Name Content} (entries : left.entry = right.entry)
    (inodes : left.inode = right.inode) (numbers : left.fresh = right.fresh) : left = right := by
  cases left
  cases right
  simp_all only

@[simp] theorem unlink_unlink_self (directory : Directory Name Content) (name : Name) :
    (directory.unlink name).unlink name = directory.unlink name := by
  apply ext_of_entry
  · simp [unlink]
  · rfl
  · rfl

theorem unlink_of_absent {directory : Directory Name Content} {name : Name}
    (absent : directory.lookup name = none) : directory.unlink name = directory := by
  have missing : directory.entry name = none := Option.map_eq_none_iff.mp absent
  apply ext_of_entry
  · funext other
    by_cases same : other = name
    · subst same
      simp [unlink, missing]
    · simp [unlink, Function.update_of_ne same]
  · rfl
  · rfl

theorem unlink_comm (directory : Directory Name Content) (first second : Name) :
    (directory.unlink first).unlink second = (directory.unlink second).unlink first := by
  by_cases same : first = second
  · rw [same]
  · apply ext_of_entry
    · exact Function.update_comm same _ _ _
    · rfl
    · rfl

/-- A rename between two other names does not see whether a name was unlinked before. -/
theorem rename_unlink_of_ne (directory : Directory Name Content) {source target name : Name}
    (notSource : source ≠ name) (notTarget : target ≠ name) :
    (directory.unlink name).rename source target = (directory.rename source target).unlink name := by
  have linked : (directory.unlink name).link source target = (directory.link source target).unlink name := by
    apply ext_of_entry
    · funext other
      by_cases one : other = name
      · subst one
        simp [unlink, link, Function.update_of_ne notTarget.symm]
      · by_cases two : other = target
        · subst two
          simp [unlink, link, Function.update_of_ne one, Function.update_of_ne notSource]
        · simp [unlink, link, Function.update_of_ne one, Function.update_of_ne two]
    · rfl
    · rfl
  have entries : (directory.unlink name).entry source = directory.entry source ∧
      (directory.unlink name).entry target = directory.entry target := by
    simp [unlink, Function.update_of_ne notSource, Function.update_of_ne notTarget]
  unfold rename
  rw [entries.1, entries.2]
  split
  · rfl
  · rw [linked, unlink_comm]

end Directory

end Foundation
