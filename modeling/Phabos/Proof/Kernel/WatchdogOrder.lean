import Mathlib.Data.List.Find
import Mathlib.Data.List.Pairwise
import Mathlib.Data.List.Perm.Basic
import Phabos.Construction.Kernel.Watchdog
import Phabos.Library.Run

namespace Phabos.Watchdog
open Library List Option

/-- The tick count at which a watchdog is due. -/
def Wdogs.due (s : Wdogs) (wd : ℕ) : ℕ := (s.priv wd).endTick.toNat

/-- No active watchdog is due before one that is listed earlier, and the end of a pass leaves none that has
expired. -/
structure Wdogs.Ordered (s : Wdogs) : Prop where
  sorted : s.wdogHead.Pairwise fun one other => s.due one ≤ s.due other
  left : s.pass = .finished → ∀ wd ∈ s.wdogHead, watchdogHasExpired s wd = false

/-- The comparator sees the order of a new due time and those of the watchdogs it is put between: the due time
does not wrap, the low 32 bits of its distance to each earlier one are below the sign bit, and those of its
distance to the first later one are not zero and at most the sign bit. -/
structure Wdogs.Comparable (s : Wdogs) (endTick : ℕ) (others : List ℕ) : Prop where
  fits : endTick < 2 ^ 64
  earlier : ∀ other ∈ others, s.due other ≤ endTick → (endTick - s.due other) % 2 ^ 32 < 2 ^ 31
  later : ∀ other ∈ others.find? (fun other => endTick < s.due other),
    1 ≤ (s.due other - endTick) % 2 ^ 32 ∧ (s.due other - endTick) % 2 ^ 32 ≤ 2 ^ 31

/-- A started watchdog can be compared with the others. A callback neither cancels a watchdog that the loop has
saved and that has expired, nor arms it anew while another one has expired. -/
def Wdogs.InOrder (s : Wdogs) : Action → Prop
  | .start wd ticks =>
    s.Comparable (s.ticks.toNat + ticks.toNat) (s.wdogHead.erase wd) ∧
      (s.pass = .calling (some wd) → watchdogHasExpired s wd = true →
        ∀ other ∈ s.wdogHead.erase wd, watchdogHasExpired s other = false)
  | .cancel wd => s.pass = .calling (some wd) → watchdogHasExpired s wd = false
  | _ => True

instance (s : Wdogs) (endTick : ℕ) (others : List ℕ) : Decidable (s.Comparable endTick others) :=
  decidable_of_iff (endTick < 2 ^ 64 ∧
    (∀ other ∈ others, s.due other ≤ endTick → (endTick - s.due other) % 2 ^ 32 < 2 ^ 31) ∧
    ∀ other ∈ others.find? (fun other => endTick < s.due other),
      1 ≤ (s.due other - endTick) % 2 ^ 32 ∧ (s.due other - endTick) % 2 ^ 32 ≤ 2 ^ 31)
    ⟨fun parts => ⟨parts.1, parts.2.1, parts.2.2⟩, fun comparable =>
      ⟨comparable.fits, comparable.earlier, comparable.later⟩⟩

instance (s : Wdogs) : ∀ action, Decidable (s.InOrder action)
  | .start _ _ => inferInstanceAs (Decidable (_ ∧ _))
  | .cancel _ => inferInstanceAs (Decidable (_ → _))
  | .tick _ | .check | .resume | .leave => inferInstanceAs (Decidable True)

section Comparator
variable {priv : ℕ → WatchdogPriv} {wdog1 wdog2 : ℕ}

theorem comparator_neg_iff (priv : ℕ → WatchdogPriv) (wdog1 wdog2 : ℕ) :
    watchdogExpirationComparator priv wdog1 wdog2 < 0 ↔
      2 ^ 31 ≤ (2 ^ 64 - (priv wdog2).endTick.toNat + (priv wdog1).endTick.toNat) % 2 ^ 32 := by
  unfold watchdogExpirationComparator
  rw [BitVec.toInt_eq_toNat_cond, BitVec.toNat_setWidth, BitVec.toNat_sub]
  split <;> omega

theorem comparator_of_le (order : (priv wdog2).endTick.toNat ≤ (priv wdog1).endTick.toNat)
    (near : ((priv wdog1).endTick.toNat - (priv wdog2).endTick.toNat) % 2 ^ 32 < 2 ^ 31) :
    watchdogExpirationComparator priv wdog1 wdog2 ≥ 0 := by
  have bound := (priv wdog2).endTick.isLt
  have sign := comparator_neg_iff priv wdog1 wdog2
  omega

theorem comparator_of_lt (order : (priv wdog1).endTick.toNat < (priv wdog2).endTick.toNat)
    (near : 1 ≤ ((priv wdog2).endTick.toNat - (priv wdog1).endTick.toNat) % 2 ^ 32 ∧
      ((priv wdog2).endTick.toNat - (priv wdog1).endTick.toNat) % 2 ^ 32 ≤ 2 ^ 31) :
    watchdogExpirationComparator priv wdog1 wdog2 < 0 := by
  have bound := (priv wdog2).endTick.isLt
  apply (comparator_neg_iff priv wdog1 wdog2).mpr
  omega

end Comparator

section SortedAdd
variable {compare : ℕ → ℕ → Int} {key : ℕ → ℕ} {node : ℕ} {nodes : List ℕ}

theorem listSortedAdd_perm : (listSortedAdd compare node nodes).Perm (node :: nodes) := by
  induction nodes with
  | nil => exact .refl _
  | cons iter rest ih =>
    unfold listSortedAdd
    split
    · exact (ih.cons iter).trans (.swap node iter rest)
    · exact .refl _

theorem listSortedAdd_sorted (sorted : nodes.Pairwise fun one other => key one ≤ key other)
    (earlier : ∀ iter ∈ nodes, key iter ≤ key node → compare node iter ≥ 0)
    (later : ∀ iter ∈ nodes.find? (fun iter => key node < key iter), compare node iter < 0) :
    (listSortedAdd compare node nodes).Pairwise fun one other => key one ≤ key other := by
  induction nodes with
  | nil => exact pairwise_singleton _ _
  | cons iter rest ih =>
    obtain ⟨first, sorted⟩ := pairwise_cons.mp sorted
    unfold listSortedAdd
    by_cases order : key iter ≤ key node
    · rw [if_pos (earlier iter mem_cons_self order)]
      rw [List.find?_cons_of_neg (by simpa using order)] at later
      refine pairwise_cons.mpr ⟨fun other there => ?_,
        ih sorted (fun other there => earlier other (mem_cons_of_mem _ there)) later⟩
      rcases mem_cons.mp (listSortedAdd_perm.mem_iff.mp there) with rfl | before
      · exact order
      · exact first other before
    · have greater : key node < key iter := Nat.lt_of_not_le order
      rw [List.find?_cons_of_pos (by simpa using greater)] at later
      have less := later iter rfl
      rw [if_neg (by omega)]
      refine pairwise_cons.mpr ⟨fun other there => ?_, pairwise_cons.mpr ⟨first, sorted⟩⟩
      rcases mem_cons.mp there with rfl | after
      · exact Nat.le_of_lt greater
      · exact Nat.le_trans (Nat.le_of_lt greater) (first other after)

theorem head?_listSortedAdd {iter : ℕ} (first : nodes.head? = some iter) (order : compare node iter ≥ 0) :
    (listSortedAdd compare node nodes).head? = some iter := by
  cases nodes with
  | nil => cases first
  | cons other rest =>
    obtain rfl := some.inj first
    unfold listSortedAdd
    rw [if_pos order]
    rfl

end SortedAdd

/-- The list is ordered, due times do not wrap, and a pass goes on with the first watchdog that has expired. -/
structure Wdogs.Sound (s : Wdogs) : Prop where
  nodup : s.wdogHead.Nodup
  sorted : s.wdogHead.Pairwise fun one other => s.due one ≤ s.due other
  armed : ∀ wd ∈ s.wdogHead, (s.priv wd).start < (s.priv wd).endTick
  first : ∀ niter, s.pass = .calling niter → ∀ wd ∈ s.wdogHead, watchdogHasExpired s wd = true →
    niter = s.wdogHead.head?
  saved : ∀ wd, s.pass = .calling (some wd) → watchdogHasExpired s wd = true → wd ∈ s.wdogHead
  left : s.pass = .finished → ∀ wd ∈ s.wdogHead, watchdogHasExpired s wd = false

section Sound
variable {s : Wdogs} {wd other : ℕ} {ticks : BitVec 32}

theorem expired_iff (armed : (s.priv wd).start < (s.priv wd).endTick) :
    watchdogHasExpired s wd = true ↔ s.due wd ≤ s.ticks.toNat := by
  unfold watchdogHasExpired Wdogs.due
  rw [if_pos armed, decide_eq_true_eq, BitVec.le_def]

theorem Wdogs.Sound.first_expired (sound : s.Sound) (there : wd ∈ s.wdogHead)
    (expired : watchdogHasExpired s wd = true) :
    ∃ iter rest, s.wdogHead = iter :: rest ∧ watchdogHasExpired s iter = true := by
  cases shape : s.wdogHead with
  | nil =>
    rw [shape] at there
    cases there
  | cons iter rest =>
    refine ⟨iter, rest, rfl, ?_⟩
    have member : iter ∈ s.wdogHead := shape ▸ mem_cons_self
    have least : s.due iter ≤ s.due wd := by
      rw [shape] at there
      rcases mem_cons.mp there with rfl | later
      · exact Nat.le_refl _
      · exact (pairwise_cons.mp (shape ▸ sound.sorted)).1 wd later
    rw [expired_iff (sound.armed iter member)]
    exact Nat.le_trans least ((expired_iff (sound.armed wd there)).mp expired)

theorem start_times (wd : ℕ) (positive : ticks ≠ 0) (fits : s.ticks.toNat + ticks.toNat < 2 ^ 64) :
    (watchdogStart s wd ticks).due wd = s.ticks.toNat + ticks.toNat ∧
      ((watchdogStart s wd ticks).priv wd).start < ((watchdogStart s wd ticks).priv wd).endTick ∧
      watchdogHasExpired (watchdogStart s wd ticks) wd = false ∧
      ∀ other ≠ wd, (watchdogStart s wd ticks).priv other = s.priv other := by
  unfold watchdogStart
  rw [if_neg positive]
  have some : 0 < ticks.toNat := by
    apply Nat.pos_of_ne_zero
    exact fun zero => positive (BitVec.eq_of_toNat_eq zero)
  have due : (s.ticks + ticks.setWidth 64).toNat = s.ticks.toNat + ticks.toNat := by
    have bound := ticks.isLt
    rw [BitVec.toNat_add, BitVec.toNat_setWidth]
    omega
  have armed : s.ticks < s.ticks + ticks.setWidth 64 := by
    rw [BitVec.lt_def, due]
    omega
  refine ⟨?_, ?_, ?_, ?_⟩
  · simp only [Wdogs.due, Function.update_self]
    exact due
  · simp only [Function.update_self]
    exact armed
  · simp only [watchdogHasExpired, Function.update_self]
    rw [if_pos armed, decide_eq_false_iff_not, BitVec.not_le]
    exact armed
  · intro other differs
    simp only [Function.update_of_ne differs]

variable {next : Wdogs}

theorem expired_congr (times : next.priv wd = s.priv wd) (now : next.ticks = s.ticks) :
    watchdogHasExpired next wd = watchdogHasExpired s wd := by
  unfold watchdogHasExpired
  rw [times, now]

theorem Wdogs.Sound.start (sound : s.Sound) (running : s.pass ≠ .finished) (positive : ticks ≠ 0)
    (order : s.InOrder (.start wd ticks)) : (watchdogStart s wd ticks).Sound := by
  obtain ⟨comparable, alone⟩ := order
  obtain ⟨own, armed, fresh, others⟩ := start_times wd positive comparable.fits
  have list : (watchdogStart s wd ticks).wdogHead = listSortedAdd
      (watchdogExpirationComparator (watchdogStart s wd ticks).priv) wd (s.wdogHead.erase wd) := by
    unfold watchdogStart
    rw [if_neg positive]
  have pass : (watchdogStart s wd ticks).pass = s.pass := by
    unfold watchdogStart
    rw [if_neg positive]
  have now : (watchdogStart s wd ticks).ticks = s.ticks := by
    unfold watchdogStart
    rw [if_neg positive]
  generalize watchdogStart s wd ticks = next at own armed fresh others list pass now
  have differs (iter) (there : iter ∈ s.wdogHead.erase wd) : iter ≠ wd :=
    (sound.nodup.mem_erase_iff.mp there).1
  have due (iter) (there : iter ∈ s.wdogHead.erase wd) : next.due iter = s.due iter := by
    unfold Wdogs.due
    rw [others iter (differs iter there)]
  have expired (iter) (there : iter ∈ s.wdogHead.erase wd) :
      watchdogHasExpired next iter = watchdogHasExpired s iter :=
    expired_congr (others iter (differs iter there)) now
  have earlier (iter) (there : iter ∈ s.wdogHead.erase wd) (before : next.due iter ≤ next.due wd) :
      watchdogExpirationComparator next.priv wd iter ≥ 0 := by
    apply comparator_of_le before
    have near := comparable.earlier iter there (by rw [← due iter there, ← own]; exact before)
    rw [← due iter there, ← own] at near
    exact near
  have member (iter) : iter ∈ next.wdogHead ↔ iter = wd ∨ iter ∈ s.wdogHead.erase wd := by
    rw [list, listSortedAdd_perm.mem_iff, mem_cons]
  refine ⟨?_, ?_, ?_, ?_, ?_, fun done => absurd (pass ▸ done) running⟩
  · rw [list, listSortedAdd_perm.nodup_iff, nodup_cons]
    exact ⟨fun there => differs wd there rfl, sound.nodup.erase wd⟩
  · rw [list]
    apply listSortedAdd_sorted
    · refine (sound.sorted.sublist erase_sublist).imp_of_mem fun {one two} first second order => ?_
      rw [due one first, due two second]
      exact order
    · exact earlier
    · intro iter found
      have there : iter ∈ s.wdogHead.erase wd := List.mem_of_find?_eq_some found
      have same : (s.wdogHead.erase wd).find? (fun other => next.due wd < next.due other) =
          (s.wdogHead.erase wd).find? (fun other => s.ticks.toNat + ticks.toNat < s.due other) := by
        rw [own]
        refine List.find?_congr fun other known => ?_
        rw [due other known]
      have greater := List.find?_some found
      apply comparator_of_lt (of_decide_eq_true greater)
      have near := comparable.later iter (same ▸ found)
      rw [← due iter there, ← own] at near
      exact near
  · intro iter there
    rcases (member iter).mp there with rfl | known
    · exact armed
    · rw [others iter (differs iter known)]
      exact sound.armed iter (mem_of_mem_erase known)
  · intro niter calling iter there past
    rw [pass] at calling
    have known : iter ∈ s.wdogHead.erase wd := by
      rcases (member iter).mp there with rfl | known
      · rw [fresh] at past
        cases past
      · exact known
    have pastBefore : watchdogHasExpired s iter = true := (expired iter known) ▸ past
    have listed : iter ∈ s.wdogHead := mem_of_mem_erase known
    have head := sound.first niter calling iter listed pastBefore
    obtain ⟨first, rest, shape, firstPast⟩ := sound.first_expired listed pastBefore
    rw [shape, List.head?_cons] at head
    subst head
    have other : first ≠ wd := by
      rintro rfl
      have unexpired := alone calling firstPast iter known
      rw [pastBefore] at unexpired
      cases unexpired
    have kept : (s.wdogHead.erase wd).head? = some first := by
      rw [shape, erase_cons_tail (by simpa using other)]
      rfl
    have member : first ∈ s.wdogHead.erase wd := mem_of_mem_head? kept
    rw [list]
    refine (head?_listSortedAdd kept (earlier first member ?_)).symm
    have past := (expired_iff (sound.armed first (shape ▸ mem_cons_self))).mp firstPast
    rw [due first member, own]
    omega
  · intro iter calling past
    rw [pass] at calling
    by_cases same : iter = wd
    · rw [same, fresh] at past
      cases past
    · rw [expired_congr (others iter same) now] at past
      exact (member iter).mpr (.inr (sound.nodup.mem_erase_iff.mpr ⟨same, sound.saved iter calling past⟩))

theorem expired_of_same (times : next.priv = s.priv) (now : next.ticks = s.ticks) (wd : ℕ) :
    watchdogHasExpired next wd = watchdogHasExpired s wd :=
  expired_congr (by rw [times]) now

theorem Wdogs.Sound.cancel (sound : s.Sound) (running : s.pass ≠ .finished)
    (kept : s.pass = .calling (some wd) → watchdogHasExpired s wd = false)
    (times : next.priv = s.priv) (now : next.ticks = s.ticks) (pass : next.pass = s.pass)
    (list : next.wdogHead = s.wdogHead.erase wd) : next.Sound := by
  have expired := expired_of_same times now
  refine ⟨?_, ?_, ?_, ?_, ?_, fun done => absurd (pass ▸ done) running⟩
  · rw [list]
    exact sound.nodup.erase wd
  · unfold Wdogs.due
    rw [list, times]
    exact sound.sorted.sublist erase_sublist
  · intro iter there
    rw [times]
    exact sound.armed iter (mem_of_mem_erase (list ▸ there))
  · intro niter calling iter there past
    rw [pass] at calling
    rw [expired] at past
    have listed : iter ∈ s.wdogHead := mem_of_mem_erase (list ▸ there)
    have head := sound.first niter calling iter listed past
    obtain ⟨first, rest, shape, firstPast⟩ := sound.first_expired listed past
    rw [shape, List.head?_cons] at head
    subst head
    have other : first ≠ wd := by
      rintro rfl
      rw [kept calling] at firstPast
      cases firstPast
    rw [list, shape, erase_cons_tail (by simpa using other)]
    rfl
  · intro iter calling past
    rw [pass] at calling
    rw [expired] at past
    have other : iter ≠ wd := by
      rintro rfl
      rw [kept calling] at past
      cases past
    rw [list]
    exact sound.nodup.mem_erase_iff.mpr ⟨other, sound.saved iter calling past⟩

theorem Wdogs.Sound.between (sound : s.Sound) (times : next.priv = s.priv)
    (list : next.wdogHead = s.wdogHead) (outside : ∀ niter, next.pass ≠ .calling niter)
    (left : next.pass = .finished → ∀ wd ∈ s.wdogHead, watchdogHasExpired next wd = false) : next.Sound where
  nodup := list ▸ sound.nodup
  sorted := by
    unfold Wdogs.due
    rw [list, times]
    exact sound.sorted
  armed wd there := by
    rw [times]
    exact sound.armed wd (list ▸ there)
  first niter calling := absurd calling (outside niter)
  saved wd calling := absurd calling (outside (some wd))
  left := by
    rw [list]
    exact left

theorem Wdogs.Sound.checkNext (sound : s.Sound) {niter : Option ℕ}
    (first : ∀ wd ∈ s.wdogHead, watchdogHasExpired s wd = true → niter = s.wdogHead.head?)
    (saved : ∀ wd, niter = some wd → watchdogHasExpired s wd = true → wd ∈ s.wdogHead) :
    (watchdogCheckNext s niter).Sound := by
  have finish (unexpired : ∀ wd ∈ s.wdogHead, watchdogHasExpired s wd = false) :
      Wdogs.Sound { s with pass := .finished } :=
    sound.between rfl rfl (fun niter calling => by cases calling) fun _ => unexpired
  cases niter with
  | none =>
    apply finish
    intro wd there
    by_contra past
    have past : watchdogHasExpired s wd = true := by simpa using past
    obtain ⟨iter, rest, shape, -⟩ := sound.first_expired there past
    have head := first wd there past
    rw [shape] at head
    cases head
  | some iter =>
    simp only [watchdogCheckNext]
    split
    · rename_i past
      have listed := saved iter rfl past
      have head := first iter listed past
      obtain ⟨rest, shape⟩ : ∃ rest, s.wdogHead = iter :: rest := by
        cases shape : s.wdogHead with
        | nil =>
          rw [shape] at listed
          cases listed
        | cons other rest =>
          rw [shape] at head
          exact ⟨rest, by rw [some.inj head]⟩
      have niter : Cursor.next s.wdogHead (some iter) = rest.head? := by
        simp only [Cursor.next, if_pos listed]
        rw [shape, Cursor.onwards_cons_self]
        rfl
      have list : (watchdogCancel s iter).wdogHead = rest := by
        unfold watchdogCancel
        rw [shape, erase_cons_head]
      have nodup := sound.nodup
      have sorted := sound.sorted
      have armed := sound.armed
      rw [shape] at nodup sorted armed
      refine ⟨?_, ?_, ?_, ?_, ?_, fun done => by cases done⟩
      · exact list ▸ (nodup_cons.mp nodup).2
      · exact list ▸ (pairwise_cons.mp sorted).2
      · intro wd there
        exact armed wd (mem_cons_of_mem _ (list ▸ there))
      · intro after calling wd there past
        obtain rfl := Pass.calling.inj calling
        rw [niter]
        exact congrArg head? list.symm
      · intro wd calling past
        have same := Pass.calling.inj calling
        rw [niter] at same
        have member : wd ∈ rest := mem_of_mem_head? same
        exact list ▸ member
    · rename_i unexpired
      apply finish
      intro wd there
      by_contra past
      have past : watchdogHasExpired s wd = true := by simpa using past
      obtain ⟨other, rest, shape, otherPast⟩ := sound.first_expired there past
      have head := first wd there past
      rw [shape] at head
      obtain rfl := some.inj head
      exact unexpired otherPast

theorem step_cancel {wd : ℕ} (stepped : step s (.cancel wd) = some next) :
    s.pass = .idle ∧ next = watchdogCancel s wd ∨
      ∃ niter, s.pass = .calling niter ∧
        next = { watchdogCancel s wd with cancelled := Function.update s.cancelled wd true } := by
  unfold Watchdog.step at stepped
  cases pass : s.pass with
  | idle =>
    rw [pass] at stepped
    exact .inl ⟨rfl, (some.inj stepped).symm⟩
  | calling niter =>
    rw [pass] at stepped
    exact .inr ⟨niter, rfl, (some.inj stepped).symm⟩
  | finished =>
    rw [pass] at stepped
    cases stepped

theorem step_resume (stepped : step s .resume = some next) :
    ∃ niter, s.pass = .calling niter ∧ next = watchdogCheckNext s niter := by
  unfold Watchdog.step at stepped
  cases pass : s.pass with
  | calling niter =>
    rw [pass] at stepped
    exact ⟨niter, rfl, (some.inj stepped).symm⟩
  | idle | finished =>
    rw [pass] at stepped
    cases stepped

/-- A call in order keeps the list sorted by expiration. -/
theorem Wdogs.Sound.step {action : Action} (sound : s.Sound) (order : s.InOrder action)
    (stepped : step s action = some next) : next.Sound := by
  cases action with
  | tick ticks =>
    obtain ⟨⟨idle, -⟩, rfl⟩ := ite_some_none_eq_some.mp stepped
    refine sound.between rfl rfl (fun niter calling => ?_) fun done => ?_
    · cases idle.symm.trans calling
    · cases idle.symm.trans done
  | start wd ticks =>
    obtain ⟨allowed, same⟩ := ite_none_left_eq_some.mp stepped
    obtain rfl := some.inj same
    exact sound.start (fun done => allowed (.inl done)) (fun zero => allowed (.inr zero)) order
  | cancel wd =>
    rcases step_cancel stepped with ⟨pass, rfl⟩ | ⟨niter, pass, rfl⟩
    · exact sound.cancel (by rw [pass]; decide) order rfl rfl rfl rfl
    · exact sound.cancel (by rw [pass]; simp) order rfl rfl rfl rfl
  | check =>
    obtain ⟨idle, rfl⟩ := ite_some_none_eq_some.mp stepped
    have fresh : Wdogs.Sound { s with cancelled := fun _ => false } :=
      { sound with }
    apply fresh.checkNext
    · intro _ _ _
      rfl
    · intro wd head _
      exact mem_of_mem_head? head
  | resume =>
    obtain ⟨niter, pass, rfl⟩ := step_resume stepped
    exact sound.checkNext (sound.first niter pass) fun wd same => sound.saved wd (same ▸ pass)
  | leave =>
    obtain ⟨-, rfl⟩ := ite_some_none_eq_some.mp stepped
    exact sound.between rfl rfl (fun niter calling => by cases calling) fun done => by cases done

end Sound

/-- In every run whose started watchdogs can be compared and whose callbacks leave the saved watchdog in its
place, the active watchdogs are sorted, and no pass leaves one that has expired. -/
theorem watchdog_list_stays_ordered (actions : List Action) (s : Wdogs)
    (inOrder : Guarded step Wdogs.InOrder .boot actions) (ran : run step .boot actions = some s) :
    s.Ordered := by
  have start : Wdogs.boot.Sound := by
    refine ⟨List.nodup_nil, List.Pairwise.nil, ?_, ?_, ?_, ?_⟩
    · exact fun wd there => absurd there List.not_mem_nil
    · intro niter calling
      cases calling
    · intro wd calling
      cases calling
    · intro done
      cases done
  have sound := run_invariant_of_guarded Wdogs.Sound start inOrder ran fun sound => sound.step
  exact ⟨sound.sorted, sound.left⟩

/-- Two watchdogs expire in order, and the callback of the first one arms it again. -/
theorem watchdog_list_stays_ordered_twice :
    ∃ s, run step .boot [.start 0 5, .start 1 3, .tick 6, .check, .start 1 10, .resume, .resume] = some s ∧
      s.Ordered :=
  ⟨_, rfl, watchdog_list_stays_ordered
    [.start 0 5, .start 1 3, .tick 6, .check, .start 1 10, .resume, .resume] _
    (by decide +kernel) rfl⟩

/-- A watchdog of 1 tick is put behind one of 2147483653 ticks, and its pass leaves it active. -/
theorem watchdog_start_sorts_wrong :
    ∃ s, run step .boot [.start 0 2147483653, .start 1 1, .tick 1, .check] = some s ∧ ¬s.Ordered ∧
      s.pass = .finished ∧ s.wdogHead = [0, 1] ∧ watchdogHasExpired s 1 = true := by
  refine ⟨_, rfl, fun ordered => ?_, by decide +kernel, by decide +kernel, by decide +kernel⟩
  exact absurd (ordered.left (by decide +kernel) 1 (by decide +kernel)) (by decide +kernel)

end Phabos.Watchdog
