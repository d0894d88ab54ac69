/-
Files, names and open handles.

A store has names for files, the contents of the files, and handles, each of
them open on a file at an offset of its own.  A write goes to the offset of its
handle, whatever is there; a file without a name is lost.

* `overwrite`, `isPrefix_overwrite_self`, `isPrefix_overwrite` — what a write
  puts into a file, and what it leaves alone;
* `Store.openTruncate`, `Store.write`, `Store.rename` — the operations;
* `Intact` — what has been written is in place, and will not be overwritten
  through any handle in use;
* `Intact.openTruncate`, `Intact.write`, `Intact.rename` — the operations keep
  it, as long as no file with a record or a handle is truncated or replaced;
* `Store.inodeOf` — the file of a handle, which stays the same.
-/
import Mathlib

namespace FileSystem

variable {π β : Type} [DecidableEq π]

/-! ### Contents -/

/-- The content after a write at an offset; a gap is filled up. -/
def overwrite (zero : β) (content : List β) (offset : ℕ) (bytes : List β) : List β :=
  (content ++ List.replicate (offset - content.length) zero).take offset ++ bytes
    ++ content.drop (offset + bytes.length)

theorem length_take_padded (zero : β) (content : List β) (offset : ℕ) :
    ((content ++ List.replicate (offset - content.length) zero).take offset).length = offset := by
  rw [List.length_take, List.length_append, List.length_replicate]
  omega

theorem isPrefix_overwrite_self (zero : β) (content : List β) (offset : ℕ) (bytes : List β) :
    bytes <+: (overwrite zero content offset bytes).drop offset := by
  rw [overwrite, List.append_assoc, List.drop_append_of_le_length (by rw [length_take_padded]),
    List.drop_of_length_le (by rw [length_take_padded]), List.nil_append]
  exact List.prefix_append ..

/-- What lies before the offset is not touched. -/
theorem isPrefix_overwrite {zero : β} {content : List β} {offset o : ℕ} {old : List β}
    (h : old <+: content.drop o) (hbefore : o + old.length ≤ offset) (bytes : List β) :
    old <+: (overwrite zero content offset bytes).drop o := by
  rw [overwrite, List.append_assoc,
    List.drop_append_of_le_length (by rw [length_take_padded]; omega), List.drop_take]
  refine List.IsPrefix.trans ?_ (List.prefix_append ..)
  refine List.prefix_take_iff.mpr ⟨h.trans ?_, by omega⟩
  rw [List.drop_append]
  exact List.prefix_append ..

/-! ### The store -/

structure Handle where
  inode : ℕ
  offset : ℕ
  deriving DecidableEq

/-- Files are known by numbers; `nextInode` is the first that is not in use. -/
structure Store (π β : Type) [DecidableEq π] where
  dir : AList fun _ : π => ℕ
  contents : ℕ → List β
  handles : List Handle
  nextInode : ℕ
  dir_lt : ∀ {p i}, dir.lookup p = some i → i < nextInode
  handles_lt : ∀ f ∈ handles, f.inode < nextInode

namespace Store

variable {fs fs' : Store π β}

/-- The file under a name, or else a new one. -/
def inodeAt (fs : Store π β) (p : π) : ℕ := (fs.dir.lookup p).getD fs.nextInode

/-- Opening a file for writing, with creation and truncation; the new handle is
the last one. -/
def openTruncate (fs : Store π β) (p : π) : Store π β where
  dir := fs.dir.insert p (fs.inodeAt p)
  contents := Function.update fs.contents (fs.inodeAt p) []
  handles := fs.handles ++ [⟨fs.inodeAt p, 0⟩]
  nextInode := max fs.nextInode (fs.inodeAt p + 1)
  dir_lt := by
    intro q i hi
    by_cases hq : q = p
    · rw [hq, AList.lookup_insert, Option.some_inj] at hi
      omega
    · rw [AList.lookup_insert_ne hq] at hi
      exact lt_max_of_lt_left (fs.dir_lt hi)
  handles_lt := by
    intro f hf
    rcases List.mem_append.mp hf with hf | hf
    · exact lt_max_of_lt_left (fs.handles_lt f hf)
    · rw [List.mem_singleton.mp hf]
      exact lt_max_of_lt_right (Nat.lt_succ_self _)

def write (zero : β) (fs : Store π β) (h : ℕ) (bytes : List β) : Option (Store π β) :=
  match hf : fs.handles[h]? with
  | none => none
  | some f => some
    { fs with
      contents := Function.update fs.contents f.inode
        (overwrite zero (fs.contents f.inode) f.offset bytes)
      handles := fs.handles.set h ⟨f.inode, f.offset + bytes.length⟩
      handles_lt := by
        intro g hg
        rcases List.mem_or_eq_of_mem_set hg with hg | rfl
        · exact fs.handles_lt g hg
        · exact fs.handles_lt f (List.mem_of_getElem? hf) }

/-- A name that is in use for another file is taken from it; two names of one
file stay as they are. -/
def rename (fs : Store π β) (p q : π) : Option (Store π β) :=
  match hp : fs.dir.lookup p with
  | none => none
  | some i => some <|
    if fs.dir.lookup q = some i then fs
    else
      { fs with
        dir := (fs.dir.erase p).insert q i
        dir_lt := by
          intro r j hj
          by_cases hr : r = q
          · rw [hr, AList.lookup_insert, Option.some_inj] at hj
            exact hj ▸ fs.dir_lt hp
          · rw [AList.lookup_insert_ne hr] at hj
            by_cases hrp : r = p
            · rw [hrp, AList.lookup_erase] at hj
              cases hj
            · rw [AList.lookup_erase_ne hrp] at hj
              exact fs.dir_lt hj }

theorem write_eq_some {zero : β} {h : ℕ} {f : Handle} {bytes : List β}
    (hf : fs.handles[h]? = some f) (hwrite : fs.write zero h bytes = some fs') :
    fs'.dir = fs.dir ∧
      fs'.contents = Function.update fs.contents f.inode
        (overwrite zero (fs.contents f.inode) f.offset bytes) ∧
      fs'.handles = fs.handles.set h ⟨f.inode, f.offset + bytes.length⟩ := by
  rw [write] at hwrite
  split at hwrite
  · cases hwrite
  · next f' hf' =>
    obtain rfl : f = f' := Option.some_inj.mp (hf.symm.trans hf')
    rw [← Option.some_inj.mp hwrite]
    exact ⟨rfl, rfl, rfl⟩

theorem rename_eq_some {p q : π} (hrename : fs.rename p q = some fs') :
    fs'.contents = fs.contents ∧ fs'.handles = fs.handles ∧
      ∃ i, fs.dir.lookup p = some i ∧
        (fs'.dir = fs.dir ∨ fs'.dir = (fs.dir.erase p).insert q i) := by
  rw [rename] at hrename
  split at hrename
  · cases hrename
  · next i hi =>
    rw [← Option.some_inj.mp hrename]
    split
    · exact ⟨rfl, rfl, i, hi, Or.inl rfl⟩
    · exact ⟨rfl, rfl, i, hi, Or.inr rfl⟩

/-- The file has a name. -/
def Named (fs : Store π β) (i : ℕ) : Prop := ∃ p, fs.dir.lookup p = some i

theorem named_iff {i : ℕ} : fs.Named i ↔ ∃ e ∈ fs.dir.entries, e.2 = i := by
  constructor
  · rintro ⟨p, hp⟩
    exact ⟨⟨p, i⟩, AList.mem_lookup_iff.mp hp, rfl⟩
  · rintro ⟨⟨p, j⟩, he, rfl⟩
    exact ⟨p, AList.mem_lookup_iff.mpr he⟩

instance (fs : Store π β) (i : ℕ) : Decidable (fs.Named i) := decidable_of_iff _ named_iff.symm

/-- The bytes are somewhere in a file with a name. -/
def Present (fs : Store π β) (bytes : List β) : Prop :=
  ∃ i, fs.Named i ∧ bytes <:+: fs.contents i

theorem present_iff {bytes : List β} :
    fs.Present bytes ↔ ∃ e ∈ fs.dir.entries, bytes <:+: fs.contents e.2 := by
  constructor
  · rintro ⟨i, ⟨p, hp⟩, hbytes⟩
    exact ⟨⟨p, i⟩, AList.mem_lookup_iff.mp hp, hbytes⟩
  · rintro ⟨⟨p, i⟩, he, hbytes⟩
    exact ⟨i, ⟨p, AList.mem_lookup_iff.mpr he⟩, hbytes⟩

instance [DecidableEq β] (fs : Store π β) (bytes : List β) : Decidable (fs.Present bytes) :=
  decidable_of_iff _ present_iff.symm

end Store

/-! ### Records -/

/-- What was written, and where. -/
structure Record (β : Type) where
  inode : ℕ
  offset : ℕ
  bytes : List β

variable {fs fs' : Store π β} {live : List ℕ} {records : List (Record β)}

/-- The record is where it was written, in a file with a name. -/
def InPlace (fs : Store π β) (r : Record β) : Prop :=
  fs.Named r.inode ∧ r.bytes <+: (fs.contents r.inode).drop r.offset

instance [DecidableEq β] (fs : Store π β) (r : Record β) : Decidable (InPlace fs r) :=
  inferInstanceAs (Decidable (_ ∧ _))

/-- The record ends before the other one begins, if they are in one file. -/
def Record.Before (r r' : Record β) : Prop :=
  r.inode = r'.inode → r.offset + r.bytes.length ≤ r'.offset

instance : DecidableRel fun r r' : Record β => r.Before r' := fun r r' =>
  inferInstanceAs (Decidable (r.inode = r'.inode → r.offset + r.bytes.length ≤ r'.offset))

/-- The file under a name, if there is one, has no record, and no handle in use
is open on it. -/
def Clear (fs : Store π β) (live : List ℕ) (records : List (Record β)) (p : π) : Prop :=
  ∀ i ∈ fs.dir.lookup p, (∀ r ∈ records, r.inode ≠ i) ∧
    ∀ h ∈ live, ∀ f ∈ fs.handles[h]?, f.inode ≠ i

instance (fs : Store π β) (live : List ℕ) (records : List (Record β)) (p : π) :
    Decidable (Clear fs live records p) :=
  inferInstanceAs (Decidable (∀ i ∈ fs.dir.lookup p, _))

/-- **The invariant.**  Every handle in use has a file with a name to itself, and
every record is in place, before the offset of the handle on its file and before
the records that came after it. -/
structure Intact (fs : Store π β) (live : List ℕ) (records : List (Record β)) : Prop where
  isOpen : ∀ h ∈ live, ∃ f, fs.handles[h]? = some f ∧ fs.Named f.inode
  apart : ∀ h ∈ live, ∀ h' ∈ live, ∀ f f', fs.handles[h]? = some f → fs.handles[h']? = some f' →
    f.inode = f'.inode → h = h'
  inPlace : ∀ r ∈ records, InPlace fs r
  before : ∀ r ∈ records, ∀ h ∈ live, ∀ f, fs.handles[h]? = some f → f.inode = r.inode →
    r.offset + r.bytes.length ≤ f.offset
  disjoint : records.Pairwise Record.Before

namespace Intact

/-- Handles may be given up. -/
theorem mono (h : Intact fs live records) {live' : List ℕ} (hsub : live' ⊆ live) :
    Intact fs live' records where
  isOpen := fun k hk => h.isOpen k (hsub hk)
  apart := fun k hk k' hk' => h.apart k (hsub hk) k' (hsub hk')
  inPlace := h.inPlace
  before := fun r hr k hk => h.before r hr k (hsub hk)
  disjoint := h.disjoint

/-- The file to be opened is none with a record. -/
theorem inodeAt_ne_record (h : Intact fs live records) {p : π} (hclear : Clear fs live records p)
    {r : Record β} (hr : r ∈ records) : r.inode ≠ fs.inodeAt p := by
  rw [Store.inodeAt]
  cases hp : fs.dir.lookup p with
  | none =>
    obtain ⟨q, hq⟩ := (h.inPlace r hr).1
    exact (fs.dir_lt hq).ne
  | some i => exact (hclear i hp).1 r hr

theorem inodeAt_ne_handle {p : π} (hclear : Clear fs live records p) {k : ℕ} (hk : k ∈ live)
    {f : Handle} (hf : fs.handles[k]? = some f) : f.inode ≠ fs.inodeAt p := by
  rw [Store.inodeAt]
  cases hp : fs.dir.lookup p with
  | none => exact (fs.handles_lt f (List.mem_of_getElem? hf)).ne
  | some i => exact (hclear i hp).2 k hk f hf

theorem named_openTruncate {p : π} {i : ℕ} (h : fs.Named i) : (fs.openTruncate p).Named i := by
  obtain ⟨q, hq⟩ := h
  by_cases hqp : q = p
  · refine ⟨p, ?_⟩
    show (fs.dir.insert p ((fs.dir.lookup p).getD fs.nextInode)).lookup p = some i
    rw [AList.lookup_insert, ← hqp, hq, Option.getD_some]
  · exact ⟨q, (AList.lookup_insert_ne hqp).trans hq⟩

/-- Opening a file that is clear, under the name it has or as a new one. -/
theorem openTruncate (h : Intact fs live records) {p : π} (hclear : Clear fs live records p) :
    Intact (fs.openTruncate p) (fs.handles.length :: live) records := by
  have hnew : (fs.openTruncate p).handles[fs.handles.length]? = some ⟨fs.inodeAt p, 0⟩ :=
    List.getElem?_concat_length
  have hold : ∀ k ∈ live, (fs.openTruncate p).handles[k]? = fs.handles[k]? := by
    intro k hk
    obtain ⟨f, hf, -⟩ := h.isOpen k hk
    exact List.getElem?_append_left (List.getElem?_eq_some_iff.mp hf).1
  constructor
  · intro k hk
    rcases List.mem_cons.mp hk with rfl | hk
    · exact ⟨_, hnew, p, AList.lookup_insert ..⟩
    · obtain ⟨f, hf, hname⟩ := h.isOpen k hk
      exact ⟨f, (hold k hk).trans hf, named_openTruncate hname⟩
  · intro k hk k' hk' f f' hf hf' heq
    rcases List.mem_cons.mp hk with rfl | hk
    · rcases List.mem_cons.mp hk' with rfl | hk'
      · rfl
      · rw [hnew, Option.some_inj] at hf
        rw [hold k' hk'] at hf'
        exact absurd (heq.symm.trans (by rw [← hf])) (inodeAt_ne_handle hclear hk' hf')
    · rcases List.mem_cons.mp hk' with rfl | hk'
      · rw [hnew, Option.some_inj] at hf'
        rw [hold k hk] at hf
        exact absurd (heq.trans (by rw [← hf'])) (inodeAt_ne_handle hclear hk hf)
      · rw [hold k hk] at hf
        rw [hold k' hk'] at hf'
        exact h.apart k hk k' hk' f f' hf hf' heq
  · intro r hr
    obtain ⟨hname, hbytes⟩ := h.inPlace r hr
    refine ⟨named_openTruncate hname, ?_⟩
    show r.bytes <+: (Function.update fs.contents (fs.inodeAt p) [] r.inode).drop r.offset
    rwa [Function.update_of_ne (h.inodeAt_ne_record hclear hr)]
  · intro r hr k hk f hf heq
    rcases List.mem_cons.mp hk with rfl | hk
    · rw [hnew, Option.some_inj] at hf
      exact absurd (heq.symm.trans (by rw [← hf])) (h.inodeAt_ne_record hclear hr)
    · rw [hold k hk] at hf
      exact h.before r hr k hk f hf heq
  · exact h.disjoint

section write

variable {zero : β} {k : ℕ} {f : Handle} {bytes : List β}

theorem named_write (hf : fs.handles[k]? = some f) (hwrite : fs.write zero k bytes = some fs')
    {i : ℕ} (h : fs.Named i) : fs'.Named i := by
  rw [Store.Named, (Store.write_eq_some hf hwrite).1]
  exact h

/-- A handle after a write is the one before, with its offset moved on if the
write went through it. -/
theorem handles_write (hf : fs.handles[k]? = some f) (hwrite : fs.write zero k bytes = some fs')
    {j : ℕ} {g : Handle} (hg : fs'.handles[j]? = some g) :
    ∃ g₀, fs.handles[j]? = some g₀ ∧ g.inode = g₀.inode ∧ g₀.offset ≤ g.offset ∧
      (j = k → g.offset = f.offset + bytes.length) := by
  rw [(Store.write_eq_some hf hwrite).2.2] at hg
  by_cases hjk : j = k
  · subst hjk
    rw [List.getElem?_set_self (List.getElem?_eq_some_iff.mp hf).1, Option.some_inj] at hg
    rw [← hg]
    exact ⟨f, hf, rfl, Nat.le_add_right .., fun _ => rfl⟩
  · rw [List.getElem?_set_ne (Ne.symm hjk)] at hg
    exact ⟨g, hg, rfl, le_rfl, fun heq => absurd heq hjk⟩

theorem isOpen_write (h : Intact fs live records) (hf : fs.handles[k]? = some f)
    (hwrite : fs.write zero k bytes = some fs') {j : ℕ} (hj : j ∈ live) :
    ∃ g, fs'.handles[j]? = some g ∧ fs'.Named g.inode := by
  obtain ⟨g₀, hg₀, hname⟩ := h.isOpen j hj
  have hlt : j < fs'.handles.length := by
    rw [(Store.write_eq_some hf hwrite).2.2, List.length_set]
    exact (List.getElem?_eq_some_iff.mp hg₀).1
  have hg := List.getElem?_eq_getElem hlt
  obtain ⟨g₁, hg₁, hinode, -, -⟩ := handles_write hf hwrite hg
  obtain rfl : g₀ = g₁ := Option.some_inj.mp (hg₀.symm.trans hg₁)
  exact ⟨_, hg, hinode ▸ named_write hf hwrite hname⟩

/-- A record that was there before lies before the offset of the one handle on
its file. -/
theorem inPlace_write (h : Intact fs live records) (hk : k ∈ live) (hf : fs.handles[k]? = some f)
    (hwrite : fs.write zero k bytes = some fs') {r : Record β} (hr : r ∈ records) :
    InPlace fs' r := by
  obtain ⟨hname, hbytes⟩ := h.inPlace r hr
  refine ⟨named_write hf hwrite hname, ?_⟩
  rw [(Store.write_eq_some hf hwrite).2.1]
  by_cases hinode : r.inode = f.inode
  · rw [hinode, Function.update_self]
    exact isPrefix_overwrite (hinode ▸ hbytes) (h.before r hr k hk f hf hinode.symm) bytes
  · rwa [Function.update_of_ne hinode]

theorem inPlace_written (h : Intact fs live records) (hk : k ∈ live)
    (hf : fs.handles[k]? = some f) (hwrite : fs.write zero k bytes = some fs') :
    InPlace fs' ⟨f.inode, f.offset, bytes⟩ := by
  obtain ⟨g, hg, hname⟩ := h.isOpen k hk
  obtain rfl : f = g := Option.some_inj.mp (hf.symm.trans hg)
  refine ⟨named_write hf hwrite hname, ?_⟩
  rw [(Store.write_eq_some hf hwrite).2.1, Function.update_self]
  exact isPrefix_overwrite_self ..

/-- A write through a handle in use leaves a new record. -/
theorem write (h : Intact fs live records) (hk : k ∈ live) (hf : fs.handles[k]? = some f)
    (hwrite : fs.write zero k bytes = some fs') :
    Intact fs' live (records ++ [⟨f.inode, f.offset, bytes⟩]) := by
  constructor
  · exact fun j hj => h.isOpen_write hf hwrite hj
  · intro j hj j' hj' g g' hg hg' heq
    obtain ⟨g₀, hg₀, hinode, -, -⟩ := handles_write hf hwrite hg
    obtain ⟨g₁, hg₁, hinode', -, -⟩ := handles_write hf hwrite hg'
    exact h.apart j hj j' hj' g₀ g₁ hg₀ hg₁ (by rw [← hinode, heq, hinode'])
  · intro r hr
    rcases List.mem_append.mp hr with hr | hr
    · exact h.inPlace_write hk hf hwrite hr
    · rw [List.mem_singleton.mp hr]
      exact h.inPlace_written hk hf hwrite
  · intro r hr j hj g hg heq
    obtain ⟨g₀, hg₀, hinode, hoffset, hown⟩ := handles_write hf hwrite hg
    rcases List.mem_append.mp hr with hr | hr
    · exact (h.before r hr j hj g₀ hg₀ (hinode.symm.trans heq)).trans hoffset
    · -- the new record ends where its handle now stands
      rw [List.mem_singleton.mp hr] at heq ⊢
      have hjk : j = k := h.apart j hj k hk g₀ f hg₀ hf (hinode.symm.trans heq)
      exact (hown hjk).ge
  · refine List.pairwise_append.mpr ⟨h.disjoint, List.pairwise_singleton _ _, fun r hr r' hr' => ?_⟩
    -- the new record begins where its handle stood, behind all others in the file
    rw [List.mem_singleton.mp hr']
    exact fun heq => h.before r hr k hk f hf heq.symm

end write

/-- A file that is renamed onto one that is clear. -/
theorem rename (h : Intact fs live records) {p q : π} (hclear : Clear fs live records q)
    (hrename : fs.rename p q = some fs') : Intact fs' live records := by
  obtain ⟨hcontents, hhandles, i, hi, hdir⟩ := Store.rename_eq_some hrename
  have hnamed : ∀ {j}, fs.Named j → fs.dir.lookup q ≠ some j → fs'.Named j := by
    rintro j ⟨r, hr⟩ hq
    rcases hdir with hdir | hdir
    · exact ⟨r, by rw [hdir, hr]⟩
    · rw [Store.Named, hdir]
      by_cases hrp : r = p
      · obtain rfl : i = j := Option.some_inj.mp (hi.symm.trans (hrp ▸ hr))
        exact ⟨q, AList.lookup_insert ..⟩
      · have hrq : r ≠ q := fun heq => hq (heq ▸ hr)
        exact ⟨r, by rw [AList.lookup_insert_ne hrq, AList.lookup_erase_ne hrp, hr]⟩
  constructor
  · intro k hk
    obtain ⟨f, hf, hname⟩ := h.isOpen k hk
    refine ⟨f, by rw [hhandles, hf], hnamed hname fun hq => ?_⟩
    exact (hclear f.inode hq).2 k hk f hf rfl
  · rw [hhandles]
    exact h.apart
  · intro r hr
    obtain ⟨hname, hbytes⟩ := h.inPlace r hr
    refine ⟨hnamed hname fun hq => (hclear r.inode hq).1 r hr rfl, ?_⟩
    rw [hcontents]
    exact hbytes
  · rw [hhandles]
    exact h.before
  · exact h.disjoint

end Intact

/-! ### The file of a handle -/

namespace Store

def inodeOf (fs : Store π β) (h : ℕ) : Option ℕ := fs.handles[h]?.map (·.inode)

theorem inodeOf_write {zero : β} {k : ℕ} {f : Handle} {bytes : List β}
    (hf : fs.handles[k]? = some f) (hwrite : fs.write zero k bytes = some fs') (h : ℕ) :
    fs'.inodeOf h = fs.inodeOf h := by
  rw [inodeOf, inodeOf, (write_eq_some hf hwrite).2.2]
  by_cases hk : k = h
  · subst hk
    rw [List.getElem?_set_self (List.getElem?_eq_some_iff.mp hf).1, hf]
    rfl
  · rw [List.getElem?_set_ne hk]

theorem inodeOf_openTruncate (fs : Store π β) (p : π) (h : ℕ) :
    (fs.openTruncate p).inodeOf h
      = if h = fs.handles.length then some (fs.inodeAt p) else fs.inodeOf h := by
  show (fs.handles ++ [⟨fs.inodeAt p, 0⟩])[h]?.map (·.inode) = _
  split
  · next hlast =>
    rw [hlast, List.getElem?_concat_length]
    rfl
  · next hne =>
    rcases Nat.lt_or_gt_of_ne hne with hlt | hgt
    · rw [List.getElem?_append_left hlt]
      rfl
    · -- there is no such handle, before and after
      rw [inodeOf, List.getElem?_eq_none (by simp; omega), List.getElem?_eq_none (by omega)]

theorem nextInode_write {zero : β} {k : ℕ} {bytes : List β}
    (hwrite : fs.write zero k bytes = some fs') : fs'.nextInode = fs.nextInode := by
  rw [write] at hwrite
  split at hwrite
  · cases hwrite
  · rw [← Option.some_inj.mp hwrite]

end Store

end FileSystem
