import Phabos.Construction.Greybus.ManifestDownload

namespace Phabos.ManifestDownload

/-- What a download promises, with the response to its second request -/
structure Download.Right (download : Download) (second : Option Response) : Prop where
  complete : download.retval = 0 → ∃ response ∈ second, download.size ≤ gbOperationGetRequestPayloadSize response ∧
    download.data = some ((List.range download.size).map response.bytes)
  inside : ∀ read ∈ download.reads, read.2 ≤ gbOperationGetRequestPayloadSize read.1
  released : download.retval ≠ 0 → download.data = none

/-- The size in the payload of a response -/
def sizeIn (response : Response) : ℕ := (response.bytes 0).toNat + 256 * (response.bytes 1).toNat

/-- The first response that is taken has a size in its payload. If the size is not 0 and there is memory for it, the
second one that is taken has as many bytes. -/
def LongEnough (first second : Exchange) (memory : Bool) : Prop :=
  ∀ size, first.run = .ok size → 2 ≤ gbOperationGetRequestPayloadSize size ∧
    (sizeIn size ≠ 0 → memory = true → ∀ data, second.run = .ok data →
      sizeIn size ≤ gbOperationGetRequestPayloadSize data)

section Exchange
variable {exchange : Exchange} {response : Response} {retval : Int}

theorem response_of_run (taken : exchange.run = .ok response) : exchange.response = some response := by
  unfold Exchange.run at taken
  split at taken
  · cases taken
  split at taken
  · cases taken
  split at taken
  · cases taken
  cases found : exchange.response with
  | none =>
    rw [found] at taken
    cases taken
  | some other =>
    rw [found] at taken
    exact congrArg some (Except.ok.inj taken)

theorem neg_of_run (failed : exchange.run = .error retval) : retval < 0 := by
  unfold Exchange.run at failed
  split at failed
  · rw [← Except.error.inj failed]
    decide
  split at failed
  · rename_i sent
    rw [← Except.error.inj failed]
    unfold Exchange.send at *
    split at sent
    · rename_i negative
      rwa [if_pos negative]
    · exact absurd rfl sent
  split at failed
  · rw [← Except.error.inj failed]
    decide
  · split at failed
    · rw [← Except.error.inj failed]
      decide
    · cases failed

end Exchange

section Download
variable {first second : Exchange} {memory : Bool} {size data : Response} {retval : Int}

theorem download_failed (failed : first.run = .error retval) :
    gbControlGetManifest first second memory = ⟨retval, 0, none, []⟩ := by
  unfold gbControlGetManifest gbControlGetManifestSize
  rw [failed]
  exact if_pos (neg_of_run failed)

theorem download_empty (taken : first.run = .ok size) (zero : sizeIn size = 0) :
    gbControlGetManifest first second memory = ⟨- EIO, 0, none, [(size, 2)]⟩ := by
  unfold gbControlGetManifest gbControlGetManifestSize
  rw [taken]
  unfold sizeIn at zero
  dsimp only
  rw [if_neg (by omega), if_pos (by omega)]

section
variable (taken : first.run = .ok size) (some : sizeIn size ≠ 0)
include taken some

theorem download_no_memory : gbControlGetManifest first second false = ⟨- ENOMEM, sizeIn size, none, [(size, 2)]⟩ := by
  unfold gbControlGetManifest gbControlGetManifestSize
  rw [taken]
  unfold sizeIn at *
  dsimp only
  rw [if_neg (by omega), if_neg (by omega), if_pos rfl]
  rfl

theorem download_refused (failed : second.run = .error retval) :
    gbControlGetManifest first second true = ⟨retval, sizeIn size, none, [(size, 2)]⟩ := by
  have negative := neg_of_run failed
  unfold gbControlGetManifest gbControlGetManifestSize gbControlGetManifestData
  rw [taken, failed]
  unfold sizeIn at *
  dsimp only
  rw [if_neg (by omega), if_neg (by omega), if_neg Bool.noConfusion, if_pos (by omega)]
  rfl

/-- Two answers give the bytes of the manifest. -/
theorem download_done (answered : second.run = .ok data) :
    gbControlGetManifest first second true =
      ⟨0, sizeIn size, .some ((List.range (sizeIn size)).map data.bytes), [(size, 2), (data, sizeIn size)]⟩ := by
  unfold gbControlGetManifest gbControlGetManifestSize gbControlGetManifestData
  rw [taken, answered]
  unfold sizeIn at *
  dsimp only
  rw [if_neg (by omega), if_neg (by omega), if_neg Bool.noConfusion, if_neg fun other => other rfl]
  rfl

end

end Download

/-- A download keeps to the payloads and delivers the manifest exactly where the responses that it takes are long
enough. -/
theorem manifest_download (first second : Exchange) (memory : Bool) :
    (gbControlGetManifest first second memory).Right second.response ↔ LongEnough first second memory := by
  cases taken : first.run with
  | error retval =>
    rw [download_failed taken]
    have negative := neg_of_run taken
    refine iff_of_true ⟨fun zero => ?_, nofun, fun _ => rfl⟩ fun size same => ?_
    · dsimp only at zero
      omega
    · rw [taken] at same
      cases same
  | ok size =>
    have long : LongEnough first second memory ↔ 2 ≤ gbOperationGetRequestPayloadSize size ∧
        (sizeIn size ≠ 0 → memory = true → ∀ data, second.run = .ok data →
          sizeIn size ≤ gbOperationGetRequestPayloadSize data) := by
      unfold LongEnough
      rw [taken]
      exact ⟨fun all => all size rfl, fun both other same => Except.ok.inj same ▸ both⟩
    have two (retval : Int) (failed : retval ≠ 0) (count : ℕ) :
        (Download.mk retval count none [(size, 2)]).Right second.response ↔
          2 ≤ gbOperationGetRequestPayloadSize size := by
      constructor
      · intro right
        exact right.inside _ List.mem_cons_self
      · intro inside
        exact ⟨fun zero => absurd zero failed, List.forall_mem_singleton.mpr inside, fun _ => rfl⟩
    rw [long]
    by_cases zero : sizeIn size = 0
    · rw [download_empty taken zero, two _ (by decide)]
      exact (and_iff_left fun some => absurd zero some).symm
    cases memory with
    | false =>
      rw [download_no_memory taken zero, two _ (by decide)]
      exact (and_iff_left fun _ => nofun).symm
    | true =>
      cases answered : second.run with
      | error retval =>
        rw [download_refused taken zero answered, two _ (by have := neg_of_run answered; omega)]
        exact (and_iff_left fun _ _ => nofun).symm
      | ok data =>
        rw [download_done taken zero answered]
        constructor
        · intro right
          refine ⟨right.inside _ List.mem_cons_self, fun _ _ other same => ?_⟩
          rw [← Except.ok.inj same]
          exact right.inside _ (List.mem_cons_of_mem _ List.mem_cons_self)
        · rintro ⟨inside, room⟩
          have fits := room zero rfl data rfl
          refine ⟨fun _ => ⟨data, response_of_run answered, fits, rfl⟩, ?_, fun failed => absurd rfl failed⟩
          exact List.forall_mem_cons.mpr ⟨inside, List.forall_mem_singleton.mpr fits⟩

/-- The module says that its manifest has 512 bytes, and sends a response without payload. -/
def sizeResponse : Exchange := ⟨true, 0, some ⟨10, 0, fun address => [0, 2].getD address 0⟩⟩

def emptyResponse : Exchange := ⟨true, 0, some ⟨8, 0, fun _ => 0x55⟩⟩

/-- The download succeeds, with 512 bytes from behind the second response. -/
theorem manifest_download_empty : (gbControlGetManifest sizeResponse emptyResponse true).retval = 0 ∧
    (gbControlGetManifest sizeResponse emptyResponse true).size = 512 ∧
    ¬(gbControlGetManifest sizeResponse emptyResponse true).Right emptyResponse.response := by
  refine ⟨by decide +kernel, by decide +kernel, fun right => ?_⟩
  obtain ⟨response, same, fits, -⟩ := right.complete (by decide +kernel)
  obtain rfl := Option.some.inj same
  exact absurd fits (by decide +kernel)

end Phabos.ManifestDownload
