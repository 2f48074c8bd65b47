import Phabos.Construction.Fs.Open
import Phabos.Proof.Hashtable.FiniteMap

namespace Phabos.OpenFile
open Fs Function Option

/-- The table of the running task refines a map to the addresses of descriptors. -/
structure Sound (s : State) (map : BitVec 32 → Option ℕ) : Prop where
  refined : s.fd.Refines map
  live : ∀ number address, map number = some address → 0 < address ∧ address < s.next
  positive : 0 < s.next

/-- The descriptors of the running task -/
def Table (s : State) (table : BitVec 32 → Option Descriptor) : Prop :=
  ∃ map, Sound s map ∧ table = fun number => (map number).map s.descriptor

/-- The table grows when a descriptor is added to it. -/
def Grows (ht : Hashtable (BitVec 32) ℕ) : Prop := ht.size / 2 ≤ ht.count + 1

section Descriptors
variable {s : State} {map : BitVec 32 → Option ℕ} {key : BitVec 32} {address : ℕ}

theorem Table.unique {first second : BitVec 32 → Option Descriptor} (one : Table s first) (two : Table s second) :
    first = second := by
  obtain ⟨map, sound, rfl⟩ := one
  obtain ⟨other, same, rfl⟩ := two
  have equal : map = other := by
    funext number
    refine Option.ext fun address => ?_
    rw [← sound.refined.holds_iff, ← same.refined.holds_iff]
  rw [equal]

theorem Sound.get (sound : Sound s map) (gets : s.fd.get key = some address) :
    map key = if address = 0 then none else some address := by
  have equal : address = (map key).getD 0 := sound.refined.get_eq gets
  cases mapped : map key with
  | none =>
    rw [mapped] at equal
    obtain rfl : address = 0 := equal
    rfl
  | some other =>
    rw [mapped] at equal
    obtain rfl : address = other := equal
    rw [if_neg (Nat.ne_of_gt (sound.live key address mapped).1)]

theorem Sound.get_mapped (sound : Sound s map) (mapped : map key = some address) : s.fd.get key = some address := by
  obtain ⟨i, stored, equal⟩ := (sound.refined.holds_iff key address).mpr mapped
  have found := sound.refined.wellFormed.getNode_stored stored
  unfold Hashtable.get
  rw [found, map_some, if_pos stored.2.1, equal]

theorem Sound.remove_mapped (sound : Sound s map) (mapped : map key = some address) :
    ∃ ht, s.fd.remove key = some ht ∧ ht.Refines (update map key none) := by
  obtain ⟨i, stored, -⟩ := (sound.refined.holds_iff key address).mpr mapped
  have removed : s.fd.remove key = some (s.fd.discard i) := by
    unfold Hashtable.remove
    rw [sound.refined.wellFormed.getNode_stored stored, map_some, if_pos stored.2.1]
  exact ⟨_, removed, sound.refined.remove removed⟩

theorem Sound.freeNumber (sound : Sound s map) {left i k : ℕ} (found : freeNumber s.fd left i = .ok (some k)) :
    i ≤ k ∧ k < i + left ∧ s.fd.get (BitVec.ofNat 32 k) = some 0 ∧
      ∀ j, i ≤ j → j < k → map (BitVec.ofNat 32 j) ≠ none := by
  induction left generalizing i with
  | zero => cases found
  | succ left ih =>
    unfold OpenFile.freeNumber at found
    cases gets : s.fd.get (BitVec.ofNat 32 i) with
    | none =>
      rw [gets] at found
      cases found
    | some fd =>
      rw [gets] at found
      dsimp only at found
      split at found
      · rename_i used
        obtain ⟨above, below, free, others⟩ := ih found
        refine ⟨by omega, by omega, free, fun j low high => ?_⟩
        rcases Nat.lt_or_eq_of_le low with later | rfl
        · exact others j later high
        · rw [sound.get gets, if_neg used]
          exact fun none => nomatch none
      · rename_i unused
        cases found
        rw [not_not] at unused
        exact ⟨Nat.le_refl _, by omega, unused ▸ gets, fun j low high => absurd high (Nat.not_lt.mpr low)⟩

theorem freeNumber_stop {ht : Hashtable (BitVec 32) ℕ} {left i : ℕ} {stop : Stop}
    (stopped : freeNumber ht left i = .error stop) : stop = .hangs := by
  induction left generalizing i with
  | zero => cases stopped
  | succ left ih =>
    unfold freeNumber at stopped
    split at stopped
    · cases stopped
      rfl
    · split at stopped
      · exact ih stopped
      · cases stopped

theorem Sound.addWith (sound : Sound s map) (free : s.fd.get key = some 0) (memory : Bool) (address : ℕ) :
    (Grows s.fd ∧ memory = false ∧ addWith memory s.fd key address = .error .fault) ∨
      (Grows s.fd → memory = true) ∧ ∃ ht, addWith memory s.fd key address = .ok ht ∧
        ht.Refines (update map key (some address)) := by
  obtain ⟨node, first, unused⟩ := Option.map_eq_some_iff.mp free
  have absent : map key = none := by rw [sound.get free, if_pos rfl]
  rcases sound.refined.wellFormed.getNode_false first with stored | ⟨inside, fresh, -⟩
  · have mapped := (sound.refined.holds_iff key _).mp ⟨node, stored, rfl⟩
    rw [absent] at mapped
    cases mapped
  obtain ⟨slot, found⟩ := Hashtable.HasFresh.findSlot_returns ⟨node, inside, fresh⟩ key
  obtain ⟨next, added, -⟩ := sound.refined.wellFormed.addAt sound.refined.load address found
  have count : (s.fd.store slot key address).count = s.fd.count + 1 := by
    refine Hashtable.store_count_of_unused ?_ key address
    rcases sound.refined.wellFormed.findSlot_placeable found with stored | ⟨-, empty, -⟩
    · have mapped := (sound.refined.holds_iff key _).mp ⟨slot, stored, rfl⟩
      rw [absent] at mapped
      cases mapped
    · exact empty
  have ran : s.fd.add key address = some next := added 0
  unfold OpenFile.addWith
  rw [found, ran]
  dsimp only
  rw [count]
  by_cases fails : Grows s.fd ∧ memory = false
  · exact .inl ⟨fails.1, fails.2, if_pos fails⟩
  · refine .inr ⟨fun grows => by_contra fun none => fails ⟨grows, Bool.not_eq_true _ ▸ none⟩, next, if_neg fails, ?_⟩
    exact sound.refined.add ran

end Descriptors

section Calls
variable {s : State} {map : BitVec 32 → Option ℕ} {table : BitVec 32 → Option Descriptor} {number : ℕ}
  {ht : Hashtable (BitVec 32) ℕ} {d : Descriptor} {file : File}

/-- The state with another descriptor, a table and dlocks -/
def State.enter (s : State) (ht : Hashtable (BitVec 32) ℕ) (dlock : ℕ → ℕ) (d : Descriptor) : State :=
  ⟨s.tree, dlock, ht, Function.update s.descriptor s.next d, s.next + 1⟩

theorem State.enter_again (s : State) (ht : Hashtable (BitVec 32) ℕ) (dlock : ℕ → ℕ) (d e : Descriptor) :
    { s.enter ht dlock d with descriptor := update (s.enter ht dlock d).descriptor s.next e } =
      s.enter ht dlock e := by
  unfold State.enter
  rw [update_idem]

theorem ofInt_natCast (number : ℕ) : BitVec.ofInt 32 number = BitVec.ofNat 32 number := BitVec.ofInt_natCast 32 number

section
variable (sound : Sound s map)
include sound

theorem Sound.enter {key : BitVec 32} (refined : ht.Refines (update map key (some s.next))) (dlock : ℕ → ℕ)
    (d : Descriptor) : Sound (s.enter ht dlock d) (update map key (some s.next)) := by
  refine ⟨refined, fun n a mapped => ?_, Nat.succ_pos _⟩
  change 0 < a ∧ a < s.next + 1
  have positive := sound.positive
  by_cases same : n = key
  · rw [same, update_self] at mapped
    obtain rfl := some.inj mapped
    omega
  · rw [update_of_ne same] at mapped
    have live := sound.live n a mapped
    omega

theorem Sound.table_enter {key : BitVec 32} (refined : ht.Refines (update map key (some s.next))) (dlock : ℕ → ℕ)
    (d : Descriptor) :
    Table (s.enter ht dlock d)
      (update (fun number => (map number).map s.descriptor) key (some d)) := by
  refine ⟨update map key (some s.next), sound.enter refined dlock d, ?_⟩
  funext n
  change _ = Option.map (update s.descriptor s.next d) _
  by_cases same : n = key
  · rw [same, update_self, update_self, map_some, update_self]
  · rw [update_of_ne same, update_of_ne same]
    cases mapped : map n with
    | none => rfl
    | some a => rw [map_some, map_some, update_of_ne (Nat.ne_of_lt (sound.live n a mapped).2)]

theorem Sound.table_leave {key : BitVec 32} (free : map key = none) {last : Hashtable (BitVec 32) ℕ}
    (refined : last.Refines (update (update map key (some s.next)) key none)) (dlock : ℕ → ℕ) (d : Descriptor) :
    Table (s.enter last dlock d) (fun number => (map number).map s.descriptor) := by
  rw [update_idem, ← free, update_eq_self] at refined
  refine ⟨map, ⟨refined, fun n a mapped => ?_, Nat.succ_pos _⟩, ?_⟩
  · exact ⟨(sound.live n a mapped).1, Nat.lt_succ_of_lt (sound.live n a mapped).2⟩
  · funext n
    change _ = Option.map (update s.descriptor s.next d) _
    cases mapped : map n with
    | none => rfl
    | some a => rw [map_some, map_some, update_of_ne (Nat.ne_of_lt (sound.live n a mapped).2)]

theorem Sound.allocateFdnum (memory : Memory) (found : OpenFile.freeNumber s.fd TASK_FD_MAX 0 = .ok (some number))
    (given : memory.fd = true) :
    (Grows s.fd ∧ memory.growTable = false ∧ allocateFdnum s memory = .error .fault) ∨
      (Grows s.fd → memory.growTable = true) ∧ ∃ ht, allocateFdnum s memory = .ok (s.enter ht s.dlock ⟨0, none⟩, number) ∧
        ht.Refines (update map (BitVec.ofNat 32 number) (some s.next)) := by
  unfold OpenFile.allocateFdnum
  rw [found]
  dsimp only [Except.bind]
  rw [given, if_neg (by decide)]
  rcases sound.addWith (sound.freeNumber found).2.2.1 memory.growTable s.next with
    ⟨grows, none, fault⟩ | ⟨room, ht, added, refined⟩
  · rw [fault]
    exact .inl ⟨grows, none, rfl⟩
  · rw [added]
    exact .inr ⟨room, ht, rfl, refined⟩

theorem Sound.freeFdnum {address : ℕ} (mapped : map (BitVec.ofNat 32 number) = some address)
    (complete : (s.descriptor address).file = some file) :
    ∃ last, freeFdnum s number = .ok ({ s with
        fd := last
        dlock := if s.tree.isDirectory file.inode then
            update s.dlock file.inode (s.dlock file.inode + 1)
          else s.dlock }, 0) ∧
      last.Refines (update map (BitVec.ofNat 32 number) none) := by
  obtain ⟨last, removed, refined⟩ := sound.remove_mapped mapped
  unfold OpenFile.freeFdnum
  rw [ofInt_natCast, sound.get_mapped mapped]
  dsimp only
  rw [if_neg (Nat.ne_of_gt (sound.live _ _ mapped).1), complete, removed]
  exact ⟨last, rfl, refined⟩

theorem Sound.freeFdnum_incomplete {address : ℕ} (mapped : map (BitVec.ofNat 32 number) = some address)
    (incomplete : (s.descriptor address).file = none) : OpenFile.freeFdnum s number = .error .fault := by
  unfold OpenFile.freeFdnum
  rw [ofInt_natCast, sound.get_mapped mapped]
  dsimp only
  rw [if_neg (Nat.ne_of_gt (sound.live _ _ mapped).1), incomplete]

end

/-- The descriptor of an opened inode -/
def opened (call : Call) (inode : ℕ) : Descriptor :=
  ⟨if call.flags &&& O_CLOEXEC ≠ 0 then O_CLOEXEC else 0, some ⟨inode, call.flags &&& ~~~O_CLOEXEC, 0⟩⟩

/-- From its descriptor on, `sys_open` reads a null pointer if the allocation of the file fails, and else it goes on
with a complete one. -/
theorem Sound.openInode (sound : Sound s map) (inode : ℕ) (call : Call)
    (refined : ht.Refines (update map (BitVec.ofNat 32 number) (some s.next)))
    (allocated : OpenFile.allocateFdnum s call.memory = .ok (s.enter ht s.dlock ⟨0, none⟩, number)) :
    openInode s inode call =
      if call.memory.file then openDevice (s.enter ht s.dlock (opened call inode)) inode number call else .error .fault := by
  have entered := sound.enter refined s.dlock ⟨0, none⟩
  have gets : toFd (s.enter ht s.dlock ⟨0, none⟩) number = .ok s.next := by
    unfold toFd
    rw [if_neg (Int.not_lt.mpr (Int.natCast_nonneg number)), ofInt_natCast,
      entered.get_mapped (update_self (BitVec.ofNat 32 number) (some s.next) map)]
  have start : (s.enter ht s.dlock ⟨0, none⟩).descriptor s.next = ⟨0, none⟩ := update_self s.next _ s.descriptor
  unfold OpenFile.openInode
  rw [allocated]
  dsimp only [Except.bind]
  rw [if_neg (Int.not_lt.mpr (Int.natCast_nonneg number)), gets]
  dsimp only
  rw [start, State.enter_again, State.enter_again]
  dsimp only
  rw [show (0 : BitVec 32) ||| O_CLOEXEC = O_CLOEXEC by decide]
  cases call.memory.file with
  | true => rfl
  | false =>
    -- the error path reads the file that was not allocated
    have mapped := update_self (BitVec.ofNat 32 number) (some s.next) map
    have fault (flags : BitVec 32) : OpenFile.freeFdnum (s.enter ht s.dlock ⟨flags, none⟩) number = .error .fault :=
      (sound.enter refined s.dlock ⟨flags, none⟩).freeFdnum_incomplete mapped
        (congrArg Descriptor.file (update_self s.next _ s.descriptor))
    rw [fault]
    rfl

end Calls

section Atomicity
variable {s o : State} {map : BitVec 32 → Option ℕ} {table : BitVec 32 → Option Descriptor} {call : Call} {inode number : ℕ}
  {ht : Hashtable (BitVec 32) ℕ}

/-- The dlocks before a call, or those when a call that found a dlock taken goes on -/
def Resumes (s : State) (call : Call) (counts : ℕ → ℕ) : Prop :=
  (∀ i < s.tree.next, counts i = s.dlock i) ∨ call.wakes = some counts ∧ ∃ inode, s.dlock inode = 0

/-- A number is open: it was the smallest free one, its descriptor is that of the inode at the path, a directory has
its dlock taken, and a close undoes this. -/
def Opens (s : State) (table : BitVec 32 → Option Descriptor) (call : Call) (after : State) (number : ℕ) : Prop :=
  number < TASK_FD_MAX ∧ table (BitVec.ofNat 32 number) = none ∧
    (∀ smaller < number, table (BitVec.ofNat 32 smaller) ≠ none) ∧
    ∃ pathname inode counts, call.pathname = some pathname ∧ fsWalk after.tree after.tree.root pathname = some inode ∧
      Table after (Function.update table (BitVec.ofNat 32 number) (some (opened call inode))) ∧ Resumes s call counts ∧
      (∀ i < s.tree.next, after.dlock i = if after.tree.isDirectory inode ∧ i = inode then counts i - 1 else counts i) ∧
      ∃ closed, sysClose after number call.devices = .ok (closed, 0) ∧ Table closed table ∧
        ∀ i < s.tree.next, closed.dlock i = counts i

/-- A call that fails leaves the descriptors and the dlocks alone, and a call that returns a number has opened it. -/
def Atomic (s : State) (table : BitVec 32 → Option Descriptor) (call : Call) : Except Stop (State × Int) → Prop
  | .error stop => stop = .hangs
  | .ok (after, result) =>
    (result < 0 → Table after table ∧ ∃ counts, Resumes s call counts ∧ ∀ i < s.tree.next, after.dlock i = counts i) ∧
      (0 ≤ result → ∃ number : ℕ, result = number ∧ Opens s table call after number)

/-- The dlock of a directory is free, or it will be. -/
def Lockable (s : State) (inode : ℕ) (wakes : Option (ℕ → ℕ)) : Prop :=
  s.tree.isDirectory inode → 0 < s.dlock inode ∨ ∃ counts, wakes = some counts ∧ 0 < counts inode

/-- A device node has a device, whose open does not return a positive number. -/
def Answers (tree : Tree) (inode : ℕ) (devices : ℕ → Option Device) : Prop :=
  tree.isCharDevice inode → ∃ device, devices (tree.inode inode).dev = some device ∧
    ∀ result, device.openResult = some result → result ≤ 0

/-- What a call that goes on with a number must find -/
def Completes (o : State) (inode : ℕ) (call : Call) : Prop :=
  (Grows o.fd → call.memory.growTable = true) ∧ call.memory.file = true ∧
    (Lockable o inode call.wakes → Answers o.tree inode call.devices)

/-- No table has to grow and no `astrcpy` has to copy without memory. Once the call has a descriptor, it gets a file, and the device of its inode
answers well. -/
structure Harmless (s : State) (call : Call) : Prop where
  directory : openPath s call ≠ .error .fault
  complete : ∀ o inode number, openPath s call = .ok (o, .ok inode) →
    freeNumber s.fd TASK_FD_MAX 0 = .ok (some number) → call.memory.fd = true → Completes o inode call

/-- The path of a call changes the tree only, and the dlock of an inode that it makes. -/
structure Resolved (s : State) (o : State) : Prop where
  fd : o.fd = s.fd
  descriptor : o.descriptor = s.descriptor
  next : o.next = s.next
  dlock : o.dlock = s.dlock ∨ o.dlock = Function.update s.dlock s.tree.next 1

variable {pathname : List UInt8}

theorem abasenameWith_cases (copied : Bool) (path : List UInt8) :
    abasenameWith copied path = .error .fault ∨ ∃ name, abasenameWith copied path = .ok name := by
  unfold abasenameWith
  split_ifs
  · exact .inr ⟨_, rfl⟩
  · exact .inl rfl
  · exact .inr ⟨_, rfl⟩

theorem adirnameWith_cases (copied : Bool) (path : List UInt8) :
    adirnameWith copied path = .error .fault ∨ ∃ name, adirnameWith copied path = .ok name := by
  unfold adirnameWith
  dsimp only
  split_ifs
  · exact .inr ⟨_, rfl⟩
  · exact .inl rfl
  · exact .inr ⟨_, rfl⟩

/-- A call that makes a node does not hang. -/
theorem sysMknodWith_stop {memory : Memory} {tree : Tree} {mode dev : ℕ} {stop : Stop}
    (stopped : sysMknodWith memory tree pathname mode dev = .error stop) : stop = .fault := by
  unfold sysMknodWith at stopped
  rcases abasenameWith_cases memory.abasename pathname with fault | ⟨name, copied⟩
  · rw [fault] at stopped
    cases stopped
    rfl
  rw [copied] at stopped
  dsimp only [Except.bind] at stopped
  split at stopped
  · cases stopped
  rcases adirnameWith_cases memory.adirname pathname with fault | ⟨path, copied⟩
  · rw [fault] at stopped
    cases stopped
    rfl
  rw [copied] at stopped
  dsimp only at stopped
  split at stopped
  · cases stopped
  split at stopped
  · cases stopped
  unfold ramfsMknodWith at stopped
  split at stopped
  · cases stopped
  split at stopped
  · cases stopped
  split at stopped
  · cases stopped
  split at stopped
  · cases stopped
  split at stopped
  · cases stopped
  · cases stopped
    rfl

/-- An open ends in a fault, or with a path that was resolved. -/
theorem openPath_cases (s : State) (call : Call) :
    openPath s call = .error .fault ∨ ∃ o result, openPath s call = .ok (o, result) ∧ Resolved s o ∧
      ∀ inode, result = .ok inode → ∃ pathname, call.pathname = some pathname ∧
        fsWalk o.tree o.tree.root pathname = some inode := by
  have same : Resolved s s := ⟨rfl, rfl, rfl, .inl rfl⟩
  unfold openPath
  cases call.pathname with
  | none => exact .inr ⟨s, _, rfl, same, fun _ failed => nomatch failed⟩
  | some pathname =>
    dsimp only
    split
    · exact .inr ⟨s, _, rfl, same, fun _ failed => nomatch failed⟩
    · -- a node is made, or the path is walked a second time in the same tree
      generalize made : (if walk call.memory.firstWalk s.tree pathname = none ∧
        call.flags &&& BitVec.ofNat 32 O_CREAT ≠ 0 then _ else _ : Except Stop (Except Errno State)) = created
      have kinds : created = .error .fault ∨ (∃ error, created = .ok (.error error)) ∨
          ∃ o, created = .ok (.ok o) ∧ Resolved s o := by
        split at made
        · subst created
          cases given : sysMknodWith call.memory s.tree pathname ((call.mode &&& S_IFMT) ||| S_IFREG) 0 with
          | error stop =>
            obtain rfl := sysMknodWith_stop given
            exact .inl rfl
          | ok result =>
            cases result with
            | error error => exact .inr (.inl ⟨error, rfl⟩)
            | ok tree => exact .inr (.inr ⟨_, rfl, rfl, rfl, rfl, .inr rfl⟩)
        · exact .inr (.inr ⟨s, made.symm, same⟩)
      rcases kinds with rfl | ⟨error, rfl⟩ | ⟨o, rfl, resolved⟩
      · exact .inl rfl
      · exact .inr ⟨s, _, rfl, same, fun _ failed => nomatch failed⟩
      · dsimp only [Except.map]
        cases found : walk call.memory.secondWalk o.tree pathname with
        | none => exact .inr ⟨o, _, rfl, resolved, fun _ failed => nomatch failed⟩
        | some inode =>
          refine .inr ⟨o, _, rfl, resolved, fun other given => ⟨pathname, rfl, ?_⟩⟩
          cases given
          unfold walk at found
          split at found
          · exact found
          · cases found

theorem Resolved.sound (resolved : Resolved s o) (sound : Sound s map) : Sound o map where
  refined := resolved.fd ▸ sound.refined
  live := resolved.next ▸ sound.live
  positive := resolved.next ▸ sound.positive

theorem Resolved.resumes {counts : ℕ → ℕ} (resolved : Resolved s o)
    (start : counts = o.dlock ∨ o.dlock inode = 0 ∧ call.wakes = some counts) : Resumes s call counts := by
  rcases start with rfl | ⟨zero, wakes⟩
  · refine .inl fun i old => ?_
    rcases resolved.dlock with same | made
    · rw [same]
    · rw [made, update_of_ne (Nat.ne_of_lt old)]
  · refine .inr ⟨wakes, inode, ?_⟩
    rcases resolved.dlock with same | made
    · rw [← same, zero]
    · rw [made] at zero
      by_cases new : inode = s.tree.next
      · rw [new, update_self] at zero
        cases zero
      · rwa [update_of_ne new] at zero

/-- The dlocks with that of a directory taken -/
def taken (tree : Tree) (inode : ℕ) (counts : ℕ → ℕ) : ℕ → ℕ :=
  if tree.isDirectory inode then Function.update counts inode (counts inode - 1) else counts

theorem taken_apply (tree : Tree) (inode : ℕ) (counts : ℕ → ℕ) (i : ℕ) :
    taken tree inode counts i = if tree.isDirectory inode ∧ i = inode then counts i - 1 else counts i := by
  unfold taken
  by_cases directory : tree.isDirectory inode = true
  · rw [if_pos directory, update_apply]
    by_cases same : i = inode
    · rw [if_pos same, if_pos ⟨directory, same⟩, same]
    · rw [if_neg same, if_neg fun both => same both.2]
  · rw [if_neg directory, if_neg fun both => directory both.1]

theorem release_taken {tree : Tree} {counts : ℕ → ℕ} (positive : tree.isDirectory inode = true → 0 < counts inode) :
    (if tree.isDirectory inode then
      update (taken tree inode counts) inode (taken tree inode counts inode + 1)
      else taken tree inode counts) = counts := by
  unfold taken
  by_cases directory : tree.isDirectory inode = true
  · have some := positive directory
    rw [if_pos directory, if_pos directory, update_self, update_idem,
      Nat.sub_add_cancel some, update_eq_self]
  · rw [if_neg directory, if_neg directory]

theorem lock_cases (s : State) (inode : ℕ) (wakes : Option (ℕ → ℕ)) :
    (if s.tree.isDirectory inode then mutexLock s inode wakes else .ok s) = .error .hangs ∧ ¬ Lockable s inode wakes ∨
      ∃ counts, (if s.tree.isDirectory inode then mutexLock s inode wakes else .ok s) =
          .ok { s with dlock := taken s.tree inode counts } ∧ Lockable s inode wakes ∧
        (counts = s.dlock ∨ s.dlock inode = 0 ∧ wakes = some counts) ∧
        (s.tree.isDirectory inode = true → 0 < counts inode) := by
  unfold taken Lockable mutexLock
  by_cases directory : s.tree.isDirectory inode = true
  · rw [if_pos directory]
    by_cases free : 0 < s.dlock inode
    · refine .inr ⟨s.dlock, ?_, fun _ => .inl free, .inl rfl, fun _ => free⟩
      rw [if_pos free, if_pos directory]
    · rw [if_neg free]
      cases wakes with
      | none => exact .inl ⟨rfl, fun lockable => ((lockable directory).resolve_left free).elim fun _ no => nomatch no.1⟩
      | some counts =>
        dsimp only
        by_cases later : 0 < counts inode
        · refine .inr ⟨counts, ?_, fun _ => .inr ⟨counts, rfl, later⟩, .inr ⟨by omega, rfl⟩, fun _ => later⟩
          rw [if_pos later, if_pos directory]
        · refine .inl ⟨if_neg later, fun lockable => ?_⟩
          obtain ⟨other, same, positive⟩ := (lockable directory).resolve_left free
          cases same
          exact later positive
  · refine .inr ⟨s.dlock, ?_, fun yes => absurd yes directory, .inl rfl, fun yes => absurd yes directory⟩
    rw [if_neg directory, if_neg directory]

theorem State.enter_file (o : State) (ht : Hashtable (BitVec 32) ℕ) (dlock : ℕ → ℕ) (call : Call) (inode : ℕ) :
    ((o.enter ht dlock (opened call inode)).descriptor o.next).file =
      some ⟨inode, call.flags &&& ~~~O_CLOEXEC, 0⟩ := by
  unfold State.enter
  dsimp only
  rw [update_self]
  rfl

theorem Sound.freed (sound : Sound o map) (call : Call) (free : map (BitVec.ofNat 32 number) = none) {counts : ℕ → ℕ}
    (refined : ht.Refines (update map (BitVec.ofNat 32 number) (some o.next)))
    (positive : o.tree.isDirectory inode = true → 0 < counts inode) :
    ∃ last, OpenFile.freeFdnum (o.enter ht (taken o.tree inode counts) (opened call inode)) number =
        .ok (o.enter last counts (opened call inode), 0) ∧
      Table (o.enter last counts (opened call inode)) fun number => (map number).map o.descriptor := by
  obtain ⟨last, freed, refines⟩ := (sound.enter refined (taken o.tree inode counts) (opened call inode)).freeFdnum
    (update_self _ _ _) (o.enter_file ht (taken o.tree inode counts) call inode)
  refine ⟨last, ?_, sound.table_leave free refines counts (opened call inode)⟩
  rw [freed]
  exact congrArg (fun dlock => Except.ok (o.enter last dlock (opened call inode), (0 : Int)))
    (@release_taken inode o.tree counts positive)

theorem Sound.opens (sound : Sound o map) (resolved : Resolved s o)
    (found : OpenFile.freeNumber o.fd TASK_FD_MAX 0 = .ok (some number)) (given : call.pathname = some pathname)
    (walked : fsWalk o.tree o.tree.root pathname = some inode) {counts : ℕ → ℕ}
    (refined : ht.Refines (update map (BitVec.ofNat 32 number) (some o.next)))
    (positive : o.tree.isDirectory inode = true → 0 < counts inode)
    (start : counts = o.dlock ∨ o.dlock inode = 0 ∧ call.wakes = some counts)
    (device : o.tree.isCharDevice inode = true → (call.devices (o.tree.inode inode).dev).isSome) :
    Opens s (fun number => (map number).map o.descriptor) call
      (o.enter ht (taken o.tree inode counts) (opened call inode)) number := by
  obtain ⟨-, below, unused, smaller⟩ := sound.freeNumber found
  have free : map (BitVec.ofNat 32 number) = none := by rw [sound.get unused, if_pos rfl]
  have resumes : Resumes s call counts := resolved.resumes start
  obtain ⟨last, freed, table⟩ := sound.freed call free refined positive
  refine ⟨by omega, congrArg (Option.map o.descriptor) free, fun j less => ?_, pathname, inode, counts, given, walked,
    sound.table_enter refined _ _, resumes, fun i _ => taken_apply o.tree inode counts i, _, ?_, table, fun _ _ => rfl⟩
  · rw [ne_eq, Option.map_eq_none_iff]
    exact smaller j (Nat.zero_le j) less
  · have gets : toFd (o.enter ht (taken o.tree inode counts) (opened call inode)) number = .ok o.next := by
      unfold toFd
      rw [if_neg (Int.not_lt.mpr (Int.natCast_nonneg number)), ofInt_natCast,
        (sound.enter refined _ _).get_mapped (update_self (BitVec.ofNat 32 number) (some o.next) map)]
    unfold sysClose
    rw [gets]
    dsimp only [Except.bind]
    rw [if_neg (Nat.ne_of_gt sound.positive), o.enter_file]
    dsimp only
    rw [if_neg, freed]
    rintro ⟨char, none⟩
    have some := device char
    rw [Option.isNone_iff_eq_none] at none
    change call.devices (o.tree.inode inode).dev = Option.none at none
    rw [none] at some
    cases some

theorem Sound.openDevice_atomic (sound : Sound o map) (resolved : Resolved s o)
    (found : OpenFile.freeNumber o.fd TASK_FD_MAX 0 = .ok (some number)) (given : call.pathname = some pathname)
    (walked : fsWalk o.tree o.tree.root pathname = some inode)
    (refined : ht.Refines (update map (BitVec.ofNat 32 number) (some o.next))) :
    Atomic s (fun number => (map number).map o.descriptor) call
        (openDevice (o.enter ht o.dlock (opened call inode)) inode number call) ↔
      (Lockable o inode call.wakes → Answers o.tree inode call.devices) := by
  have free : map (BitVec.ofNat 32 number) = none := by rw [sound.get (sound.freeNumber found).2.2.1, if_pos rfl]
  unfold openDevice
  rcases lock_cases (o.enter ht o.dlock (opened call inode)) inode call.wakes with
    ⟨hangs, unlockable⟩ | ⟨counts, locked, lockable, start, positive⟩
  · rw [hangs]
    exact iff_of_true rfl fun lockable => absurd lockable unlockable
  rw [locked]
  dsimp only [Except.bind]
  have opens := sound.opens resolved found given walked refined positive start
  have success (device : o.tree.isCharDevice inode = true → (call.devices (o.tree.inode inode).dev).isSome) :
      Atomic s (fun number => (map number).map o.descriptor) call
        (.ok (o.enter ht (taken o.tree inode counts) (opened call inode), number)) :=
    ⟨fun negative => absurd negative (Int.not_lt.mpr (Int.natCast_nonneg number)), fun _ => ⟨number, rfl, opens device⟩⟩
  change Atomic s _ call (if o.tree.isCharDevice inode then _ else _) ↔ _
  by_cases char : o.tree.isCharDevice inode = true
  · rw [if_pos char]
    cases shown : call.devices ((o.enter ht o.dlock (opened call inode)).tree.inode inode).dev with
    | none =>
      have device : call.devices (o.tree.inode inode).dev = none := shown
      refine iff_of_false (fun hangs => nomatch hangs) fun answers => ?_
      obtain ⟨dev, some, -⟩ := answers lockable char
      rw [device] at some
      cases some
    | some dev =>
      have device : call.devices (o.tree.inode inode).dev = some dev := shown
      dsimp only
      cases answer : dev.openResult with
      | none =>
        refine iff_of_true (success fun _ => by rw [device]; rfl) fun _ _ => ⟨dev, device, fun _ some => ?_⟩
        rw [answer] at some
        cases some
      | some retval =>
        have answers (nonpositive : retval ≤ 0) : Answers o.tree inode call.devices := by
          refine fun _ => ⟨dev, device, fun result same => ?_⟩
          rw [answer] at same
          exact some.inj same ▸ nonpositive
        dsimp only
        by_cases zero : retval = 0
        · rw [if_neg (not_not.mpr zero)]
          exact iff_of_true (success fun _ => by rw [device]; rfl) fun _ => answers (Int.le_of_eq zero)
        · obtain ⟨last, freed, table⟩ := sound.freed call free refined positive
          rw [if_pos zero]
          change Atomic s _ call
            ((OpenFile.freeFdnum (o.enter ht (taken o.tree inode counts) (opened call inode)) number).map _) ↔ _
          rw [freed]
          by_cases negative : retval < 0
          · exact iff_of_true ⟨fun _ => ⟨table, counts, resolved.resumes start, fun _ _ => rfl⟩,
              fun other => absurd negative (Int.not_lt.mpr other)⟩ fun _ => answers (Int.le_of_lt negative)
          · -- the positive number names no descriptor
            refine iff_of_false (fun atomic => ?_) fun good => ?_
            · obtain ⟨other, -, -, none, -, _, inode', _, -, -, entered, -⟩ := atomic.2 (Int.not_lt.mp negative)
              have same := congrFun (table.unique entered) (BitVec.ofNat 32 other)
              rw [update_self] at same
              cases none.symm.trans same
            · obtain ⟨dev', same, nonpositive⟩ := good lockable char
              rw [device] at same
              cases same
              exact zero (Int.le_antisymm (nonpositive retval answer) (Int.not_lt.mp negative))
  · rw [if_neg char]
    exact iff_of_true (success fun yes => absurd yes char) fun _ yes => absurd yes char

/-- A resolved open that fails is atomic. -/
theorem Resolved.fails (resolved : Resolved s o) (before : Sound s map) (call : Call) {result : Int}
    (negative : result < 0) : Atomic s (fun number => (map number).map s.descriptor) call (.ok (o, result)) := by
  refine ⟨fun _ => ⟨⟨map, resolved.sound before, by rw [resolved.descriptor]⟩, o.dlock, ?_, fun _ _ => rfl⟩,
    fun other => absurd negative (Int.not_lt.mpr other)⟩
  exact @Resolved.resumes s o call 0 o.dlock resolved (.inl rfl)

theorem Resolved.openInode_atomic (resolved : Resolved s o) (before : Sound s map)
    (given : call.pathname = some pathname) (walked : fsWalk o.tree o.tree.root pathname = some inode) :
    Atomic s (fun number => (map number).map s.descriptor) call (openInode o inode call) ↔
      ∀ number, freeNumber o.fd TASK_FD_MAX 0 = .ok (some number) → call.memory.fd = true → Completes o inode call := by
  have sound := resolved.sound before
  cases search : freeNumber o.fd TASK_FD_MAX 0 with
  | error stop =>
    have hangs := freeNumber_stop search
    refine iff_of_true ?_ fun number found => nomatch found
    unfold openInode allocateFdnum
    rw [search]
    exact hangs
  | ok found =>
    cases found with
    | none =>
      refine iff_of_true ?_ fun number found => nomatch found
      unfold openInode allocateFdnum
      rw [search]
      exact resolved.fails before call (by decide)
    | some number =>
      cases granted : call.memory.fd with
      | false =>
        refine iff_of_true ?_ fun _ _ none => nomatch none
        unfold openInode allocateFdnum
        rw [search]
        dsimp only [Except.bind]
        rw [granted]
        have negative : -value .ENOMEM < 0 := by decide
        exact resolved.fails before call negative
      | true =>
        have each {P : Prop} : (∀ other, (Except.ok (some number) : Except Stop (Option ℕ)) = .ok (some other) →
            true = true → P) ↔ P := ⟨fun all => all number rfl rfl, fun one _ _ _ => one⟩
        rw [each]
        rcases sound.allocateFdnum call.memory search granted with
          ⟨grows, none, fault⟩ | ⟨room, ht, allocated, refined⟩
        · refine iff_of_false ?_ fun good => Bool.noConfusion (none.symm.trans (good.1 grows))
          unfold openInode
          rw [fault]
          exact fun hangs => nomatch hangs
        · rw [sound.openInode inode call refined allocated]
          cases file : call.memory.file with
          | false =>
            exact iff_of_false (fun hangs => nomatch hangs) fun good => Bool.noConfusion (file.symm.trans good.2.1)
          | true =>
            have device := sound.openDevice_atomic resolved search given walked refined
            rw [resolved.descriptor] at device
            exact device.trans ⟨fun answers => ⟨room, file, answers⟩, fun good => good.2.2⟩

/-- For every task, every call and every allocation that fails, `sys_open` either fails and changes no descriptor and no
dlock, or gives the smallest free number to a complete descriptor that `sys_close` takes away again, if and only if no
table has to grow and no `astrcpy` has to copy without memory, the allocation of the file succeeds, and a device answers
with no positive number. -/
theorem sys_open_atomic (s : State) (table : BitVec 32 → Option Descriptor) (shown : Table s table) (call : Call) :
    Atomic s table call (sysOpen s call) ↔ Harmless s call := by
  obtain ⟨map, before, rfl⟩ := shown
  unfold sysOpen
  rcases openPath_cases s call with fault | ⟨o, result, path, resolved, walked⟩
  · rw [fault]
    exact iff_of_false (fun hangs => nomatch hangs) fun harmless => harmless.directory fault
  have clean : openPath s call ≠ .error .fault := by
    rw [path]
    exact fun stop => nomatch stop
  rw [path]
  dsimp only [Except.bind]
  cases result with
  | error error =>
    refine iff_of_true (resolved.fails before call (by cases error <;> decide)) ⟨clean, fun o' inode number other => ?_⟩
    rw [path] at other
    cases other
  | ok inode =>
    obtain ⟨pathname, given, walked⟩ := walked inode rfl
    refine (resolved.openInode_atomic before given walked).trans ?_
    rw [resolved.fd]
    refine ⟨fun complete => ⟨clean, ?_⟩, fun harmless number => harmless.complete o inode number path⟩
    intro o' inode' number other
    cases path.symm.trans other
    exact complete number

end Atomicity

/-- A task without descriptors in a tree with a root only -/
def newTask : State := ⟨mounted, fun _ => 1, .create uintKeys, fun _ => ⟨0, none⟩, 1⟩

/-- `open("/", O_CLOEXEC)` with a memory that gives the file or does not -/
def openRoot (file : Bool) : Call :=
  ⟨some [slash], O_CLOEXEC, 0, ⟨true, true, true, true, true, true, true, true, true, true, file⟩, fun _ => none, none⟩

theorem newTask_table : Table newTask fun _ => none :=
  ⟨fun _ => none, ⟨Hashtable.refines_create uintKeys, fun _ _ mapped => (nomatch mapped), Nat.one_pos⟩, rfl⟩

/-- The root directory is opened as descriptor 0. -/
theorem sys_open_atomic_root : Atomic newTask (fun _ => none) (openRoot true) (sysOpen newTask (openRoot true)) := by
  refine (sys_open_atomic newTask _ newTask_table (openRoot true)).mpr ⟨fun fault => (nomatch fault), ?_⟩
  intro o inode number path _ _
  have same : openPath newTask (openRoot true) = .ok (newTask, .ok 0) := rfl
  cases path.symm.trans same
  exact ⟨fun _ => rfl, rfl, fun _ char => absurd char (by decide)⟩

/-- Without memory for its file, the error path of `sys_open` reads the file through a null pointer. -/
theorem sys_open_faults : Table newTask (fun _ => none) ∧ sysOpen newTask (openRoot false) = .error .fault ∧
    ¬ Atomic newTask (fun _ => none) (openRoot false) (sysOpen newTask (openRoot false)) := by
  have fault : sysOpen newTask (openRoot false) = .error .fault := rfl
  refine ⟨newTask_table, fault, ?_⟩
  rw [fault]
  exact fun hangs => nomatch hangs

end Phabos.OpenFile
