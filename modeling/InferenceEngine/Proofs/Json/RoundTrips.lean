import InferenceEngine.Engine.Report
import InferenceEngine.Options.Server
import InferenceEngine.Proofs.Json.Records

/-!
# Values survive their blobs

Whatever the texts of a value are, and whichever optional fields and map keys it has: if its numbers
fit the machine's types, then its blob is decoded as that very value.
-/

namespace InferenceEngine

/-- Whether the blob of a value is decoded as that value, which is written as the same blob
again. -/
structure Blob.Restores {α : Type} (toJson : α -> Json) (ofJson? : Json -> Option α) (a : α) :
    Prop where
  decoded : (Blob.ofJson (toJson a)).decode ofJson? = .ok a
  again : (Blob.ofJson (toJson a)).roundTrips ofJson? toJson = true

theorem Json.Keeps.restores {α : Type} {toJson : α -> Json} {ofJson? : Json -> Option α} {a : α}
    (h : Keeps toJson ofJson? a) : Blob.Restores toJson ofJson? a := by
  have hdecoded : (Blob.ofJson (toJson a)).decode ofJson? = .ok a := by
    have hread : (read? (toJson a).text.toList).bind ofJson? = some a := by
      rw [text, String.toList_ofList, read?_write h.plain]
      exact h.value
    unfold Blob.decode Blob.ofJson
    simp only [hread]
  refine ⟨hdecoded, ?_⟩
  unfold Blob.roundTrips
  rw [hdecoded]
  exact decide_eq_true rfl

open Json

/-!
# Configurations
-/

theorem DataType.keeps (t : DataType) : Keeps toJson ofJson? t :=
  keeps_choice (by cases t <;> rfl)

theorem MemoryDomain.keeps (d : MemoryDomain) : Keeps toJson ofJson? d :=
  keeps_choice (by cases d <;> rfl)

def TensorSpec.IsInRange (spec : TensorSpec) : Prop :=
  forall dim : Int, dim ∈ spec.dims -> Text.fitsSigned dim = true

theorem TensorSpec.IsInRange.keeps {spec : TensorSpec} (h : spec.IsInRange) :
    Keeps toJson ofJson? spec := by
  have hname := keeps_text spec.name
  have htype := spec.dataType.keeps
  have hdims : Keeps (ofList ofInt) (list? signed?) spec.dims :=
    keeps_list fun dim hdim => keeps_signed (h dim hdim)
  refine keeps_record (fun _ => rfl) rfl ?_ ?_ ?_
  · simp
  · simp [hname.plain, htype.plain, hdims.plain]
  · simp [List.lookup_cons, required, hname.value, htype.value, hdims.value]

theorem Placement.keeps {p : Placement} (h : Text.fitsSigned p.region = true) :
    Keeps toJson ofJson? p := by
  have hdomain := p.domain.keeps
  have hregion := keeps_signed h
  refine keeps_record (fun _ => rfl) rfl ?_ ?_ ?_
  · simp
  · simp [hdomain.plain, hregion.plain]
  · simp [List.lookup_cons, required, orElse, hdomain.value, hregion.value]

/-- Whether the numbers of a configuration fit their types. -/
structure ModelConfig.IsInRange (config : ModelConfig) : Prop where
  maxBatchSize : config.maxBatchSize < Text.halfWordBound
  inputs : forall spec : TensorSpec, spec ∈ config.inputs -> spec.IsInRange
  outputs : forall spec : TensorSpec, spec ∈ config.outputs -> spec.IsInRange
  region : Text.fitsSigned config.placement.region = true

theorem ModelConfig.IsInRange.keeps {config : ModelConfig} (h : config.IsInRange) :
    Keeps toJson ofJson? config := by
  have hname := keeps_text config.name
  have hbatch := keeps_halfWord h.maxBatchSize
  have hinputs := keeps_list fun spec hspec => (h.inputs spec hspec).keeps
  have houtputs := keeps_list fun spec hspec => (h.outputs spec hspec).keeps
  have hplacement := Placement.keeps h.region
  refine keeps_record (fun _ => rfl) rfl ?_ ?_ ?_
  · simp
  · simp [hname.plain, hbatch.plain, hinputs.plain, houtputs.plain, hplacement.plain]
  · simp [List.lookup_cons, required, orElse, hname.value, hbatch.value, hinputs.value,
      houtputs.value, hplacement.value]

/-!
# Requests and responses
-/

/-- Whether the numbers of a header fit their types. -/
structure RequestHeader.IsInRange (header : RequestHeader) : Prop where
  id : header.id < Text.wordBound
  batchSize : header.batchSize < Text.halfWordBound

theorem RequestHeader.IsInRange.keeps {header : RequestHeader} (h : header.IsInRange) :
    Keeps toJson ofJson? header := by
  have hid := keeps_word h.id
  have hbatch := keeps_halfWord h.batchSize
  have houtputs : Keeps (ofList ofText) (list? text?) header.outputs :=
    keeps_list fun name _ => keeps_text name
  refine keeps_record (fun _ => rfl) rfl ?_ ?_ ?_
  · simp
  · simp [hid.plain, hbatch.plain, houtputs.plain]
  · simp [List.lookup_cons, required, orElse, hid.value, hbatch.value, houtputs.value]

structure HandleRange.IsInRange (range : HandleRange) : Prop where
  offset : range.offset < Text.wordBound
  size : range.size < Text.wordBound

theorem HandleRange.IsInRange.keeps {range : HandleRange} (h : range.IsInRange) :
    Keeps toJson ofJson? range := by
  have hhandle := keeps_text range.handle
  have hoffset := keeps_word h.offset
  have hsize := keeps_word h.size
  refine keeps_record (fun _ => rfl) rfl ?_ ?_ ?_
  · simp
  · simp [hhandle.plain, hoffset.plain, hsize.plain]
  · simp [List.lookup_cons, required, hhandle.value, hoffset.value, hsize.value]

/-- The handle stands in the document only if there is one, so the two forms are read apart. -/
theorem OutputHeader.keeps {header : OutputHeader} (h : header.size < Text.wordBound) :
    Keeps toJson ofJson? header := by
  have hname := keeps_text header.name
  have hsize := keeps_word h
  obtain ⟨name, size, handle⟩ := header
  cases handle with
  | none =>
      refine keeps_record (fun _ => rfl) rfl ?_ ?_ ?_
      · simp
      · simp [hname.plain, hsize.plain]
      · simp [List.lookup_cons, required, orElse, hname.value, hsize.value]
  | some handle =>
      refine keeps_record (fun _ => rfl) rfl ?_ ?_ ?_
      · simp
      · simp [hname.plain, hsize.plain, (keeps_text handle).plain]
      · simp [List.lookup_cons, required, orElse, hname.value, hsize.value, nullable?_ofText]

/-- Whether the numbers of a header fit their types. -/
structure ResponseHeader.IsInRange (header : ResponseHeader) : Prop where
  id : header.id < Text.wordBound
  version : Text.fitsSigned header.version = true
  batchSize : header.batchSize < Text.halfWordBound
  sizes : forall output : OutputHeader, output ∈ header.outputs -> output.size < Text.wordBound
  computeTime : header.computeTime < Text.wordBound

theorem ResponseHeader.IsInRange.keeps {header : ResponseHeader} (h : header.IsInRange) :
    Keeps toJson ofJson? header := by
  have hid := keeps_word h.id
  have hmodel := keeps_text header.model
  have hversion := keeps_signed h.version
  have hbatch := keeps_halfWord h.batchSize
  have houtputs := keeps_list fun output houtput => OutputHeader.keeps (h.sizes output houtput)
  have htime := keeps_word h.computeTime
  refine keeps_record (fun _ => rfl) rfl ?_ ?_ ?_
  · simp
  · simp [hid.plain, hmodel.plain, hversion.plain, hbatch.plain, houtputs.plain, htime.plain]
  · simp [List.lookup_cons, required, hid.value, hmodel.value, hversion.value, hbatch.value,
      houtputs.value, htime.value]

/-!
# Statuses

The reason stands in the document only if there is one.
-/

structure InferStats.IsInRange (stats : InferStats) : Prop where
  success : stats.success < Text.wordBound
  failed : stats.failed < Text.wordBound
  computeTime : stats.computeTime < Text.wordBound

theorem InferStats.IsInRange.keeps {stats : InferStats} (h : stats.IsInRange) :
    Keeps toJson ofJson? stats := by
  have hsuccess := keeps_word h.success
  have hfailed := keeps_word h.failed
  have htime := keeps_word h.computeTime
  refine keeps_record (fun _ => rfl) rfl ?_ ?_ ?_
  · simp
  · simp [hsuccess.plain, hfailed.plain, htime.plain]
  · simp [List.lookup_cons, required, hsuccess.value, hfailed.value, htime.value]

theorem ReadyState.keeps (state : ReadyState) : Keeps toJson ofJson? state :=
  keeps_choice (by cases state <;> rfl)

theorem VersionStatus.keeps {status : VersionStatus} (h : status.stats.IsInRange) :
    Keeps toJson ofJson? status := by
  have hstate := status.readyState.keeps
  have hstats := h.keeps
  obtain ⟨readyState, reason, stats⟩ := status
  cases reason with
  | none =>
      refine keeps_record (fun _ => rfl) rfl ?_ ?_ ?_
      · simp
      · simp [hstate.plain, hstats.plain]
      · simp [List.lookup_cons, required, orElse, hstate.value, hstats.value]
  | some reason =>
      refine keeps_record (fun _ => rfl) rfl ?_ ?_ ?_
      · simp
      · simp [hstate.plain, hstats.plain, (keeps_text reason).plain]
      · simp [List.lookup_cons, required, orElse, hstate.value, hstats.value, nullable?_ofText]

/-- Whether the numbers of a status fit their types, those of the versions among them. -/
structure ModelStatus.IsInRange (status : ModelStatus) : Prop where
  config : status.config.IsInRange
  versions : forall e : Int × VersionStatus, e ∈ status.versions.toList ->
    Text.fitsSigned e.1 = true
  stats : forall e : Int × VersionStatus, e ∈ status.versions.toList -> e.2.stats.IsInRange

theorem ModelStatus.IsInRange.keeps {status : ModelStatus} (h : status.IsInRange) :
    Keeps toJson ofJson? status := by
  have hconfig := h.config.keeps
  have hversions := keeps_intMap h.versions fun e he => VersionStatus.keeps (h.stats e he)
  refine keeps_record (fun _ => rfl) rfl ?_ ?_ ?_
  · simp
  · simp [hconfig.plain, hversions.plain]
  · simp [List.lookup_cons, required, hconfig.value, hversions.value]

theorem ServerState.keeps (state : ServerState) : Keeps toJson ofJson? state :=
  keeps_choice (by cases state <;> rfl)

/-- Whether the numbers of a status fit their types. -/
structure ServerStatus.IsInRange (status : ServerStatus) : Prop where
  startedAt : Text.fitsSigned status.startedAt = true
  uptime : status.uptime < Text.wordBound
  models : forall e : String × ModelStatus, e ∈ status.models.toList -> e.2.IsInRange

theorem ServerStatus.IsInRange.keeps {status : ServerStatus} (h : status.IsInRange) :
    Keeps toJson ofJson? status := by
  have hid := keeps_text status.id
  have hversion := keeps_text status.version
  have hstate := status.state.keeps
  have hlive := keeps_bool status.live
  have hready := keeps_bool status.ready
  have hstarted := keeps_signed h.startedAt
  have huptime := keeps_word h.uptime
  have hmodels := keeps_textMap fun e he => (h.models e he).keeps
  refine keeps_record (fun _ => rfl) rfl ?_ ?_ ?_
  · simp
  · simp [hid.plain, hversion.plain, hstate.plain, hlive.plain, hready.plain, hstarted.plain,
      huptime.plain, hmodels.plain]
  · simp [List.lookup_cons, required, hid.value, hversion.value, hstate.value, hlive.value,
      hready.value, hstarted.value, huptime.value, hmodels.value]

structure HandleStatus.IsInRange (status : HandleStatus) : Prop where
  offset : status.offset < Text.wordBound
  size : status.size < Text.wordBound

theorem HandleStatus.IsInRange.keeps {status : HandleStatus} (h : status.IsInRange) :
    Keeps toJson ofJson? status := by
  have hname := keeps_text status.name
  have hkey := keeps_text status.regionKey
  have hoffset := keeps_word h.offset
  have hsize := keeps_word h.size
  refine keeps_record (fun _ => rfl) rfl ?_ ?_ ?_
  · simp
  · simp [hname.plain, hkey.plain, hoffset.plain, hsize.plain]
  · simp [List.lookup_cons, required, hname.value, hkey.value, hoffset.value, hsize.value]

/-!
# Options
-/

/-- Whether the numbers of a device's memory fit their types. -/
structure AcceleratorPool.IsInRange (pool : AcceleratorPool) : Prop where
  device : Text.fitsSigned pool.device = true
  capacity : pool.capacity < Text.wordBound

theorem AcceleratorPool.IsInRange.keeps {pool : AcceleratorPool} (h : pool.IsInRange) :
    Keeps toJson ofJson? pool := by
  have hdevice := keeps_signed h.device
  have hcapacity := keeps_word h.capacity
  refine keeps_record (fun _ => rfl) rfl ?_ ?_ ?_
  · simp
  · simp [hdevice.plain, hcapacity.plain]
  · simp [List.lookup_cons, required, hdevice.value, hcapacity.value]

/-- Whether the numbers of memory options fit their types. -/
structure MemoryOptions.IsInRange (options : MemoryOptions) : Prop where
  hostLimit : forall limit : Nat, options.hostLimit = some limit -> limit < Text.wordBound
  accelerators : forall pool : AcceleratorPool, pool ∈ options.accelerators -> pool.IsInRange

theorem MemoryOptions.IsInRange.keeps {options : MemoryOptions} (h : options.IsInRange) :
    Keeps toJson ofJson? options := by
  have hlimit : Keeps (ofOption ofNat) (nullable? word?) options.hostLimit := by
    apply keeps_option
    · intro limit hlimit
      exact keeps_word (h.hostLimit limit hlimit)
    · intro limit hnull
      cases hnull
  have hpools := keeps_list fun pool hpool => (h.accelerators pool hpool).keeps
  refine keeps_record (fun _ => rfl) rfl ?_ ?_ ?_
  · simp
  · simp [hlimit.plain, hpools.plain]
  · simp [List.lookup_cons, orElse, hlimit.value, hpools.value]

theorem LoggingOptions.keeps (options : LoggingOptions) : Keeps toJson ofJson? options := by
  have hlevel := keeps_text options.level
  have hfilter : Keeps (ofOption ofText) (nullable? text?) options.filter := by
    apply keeps_option
    · intro filter _
      exact keeps_text filter
    · intro filter hnull
      cases hnull
  refine keeps_record (fun _ => rfl) rfl ?_ ?_ ?_
  · simp
  · simp [hlevel.plain, hfilter.plain]
  · simp [List.lookup_cons, orElse, hlevel.value, hfilter.value]

/-- Whether the numbers of options fit their types. -/
structure ServerOptions.IsInRange (options : ServerOptions) : Prop where
  exitTimeout : options.exitTimeout < Text.wordBound
  executionSlots : options.executionSlots < Text.wordBound
  memory : options.memory.IsInRange

theorem ServerOptions.IsInRange.keeps {options : ServerOptions} (h : options.IsInRange)
    (host : Host) : Keeps toJson (ofJsonOn? host) options := by
  have hid := keeps_text options.serverId
  have hconfig := keeps_bool options.strictModelConfig
  have hreadiness := keeps_bool options.strictReadiness
  have hexit := keeps_bool options.exitOnError
  have htimeout := keeps_word h.exitTimeout
  have hslots := keeps_word h.executionSlots
  have hdirectory := keeps_text options.sharedMemoryDir
  have hmemory := h.memory.keeps
  have hlogging := options.logging.keeps
  refine keeps_record (fun _ => rfl) rfl ?_ ?_ ?_
  · simp
  · simp [hid.plain, hconfig.plain, hreadiness.plain, hexit.plain, htimeout.plain, hslots.plain,
      hdirectory.plain, hmemory.plain, hlogging.plain]
  · simp [List.lookup_cons, orElse, hid.value, hconfig.value, hreadiness.value, hexit.value,
      htimeout.value, hslots.value, hdirectory.value, hmemory.value, hlogging.value]

/-!
# All of them
-/

/-- The blob of a value of any kind is decoded as that value. -/
theorem blobs_restore_values :
    (forall spec : TensorSpec, spec.IsInRange ->
      Blob.Restores TensorSpec.toJson TensorSpec.ofJson? spec) ∧
    (forall config : ModelConfig, config.IsInRange ->
      Blob.Restores ModelConfig.toJson ModelConfig.ofJson? config) ∧
    (forall header : RequestHeader, header.IsInRange ->
      Blob.Restores RequestHeader.toJson RequestHeader.ofJson? header) ∧
    (forall range : HandleRange, range.IsInRange ->
      Blob.Restores HandleRange.toJson HandleRange.ofJson? range) ∧
    (forall status : HandleStatus, status.IsInRange ->
      Blob.Restores HandleStatus.toJson HandleStatus.ofJson? status) ∧
    (forall header : ResponseHeader, header.IsInRange ->
      Blob.Restores ResponseHeader.toJson ResponseHeader.ofJson? header) ∧
    (forall stats : InferStats, stats.IsInRange ->
      Blob.Restores InferStats.toJson InferStats.ofJson? stats) ∧
    (forall status : VersionStatus, status.stats.IsInRange ->
      Blob.Restores VersionStatus.toJson VersionStatus.ofJson? status) ∧
    (forall status : ModelStatus, status.IsInRange ->
      Blob.Restores ModelStatus.toJson ModelStatus.ofJson? status) ∧
    (forall status : ServerStatus, status.IsInRange ->
      Blob.Restores ServerStatus.toJson ServerStatus.ofJson? status) ∧
    (forall options : MemoryOptions, options.IsInRange ->
      Blob.Restores MemoryOptions.toJson MemoryOptions.ofJson? options) ∧
    (forall options : LoggingOptions,
      Blob.Restores LoggingOptions.toJson LoggingOptions.ofJson? options) ∧
    (forall (host : Host) (options : ServerOptions), options.IsInRange ->
      Blob.Restores ServerOptions.toJson (ServerOptions.ofJsonOn? host) options) :=
  ⟨fun _ h => h.keeps.restores, fun _ h => h.keeps.restores, fun _ h => h.keeps.restores,
    fun _ h => h.keeps.restores, fun _ h => h.keeps.restores, fun _ h => h.keeps.restores,
    fun _ h => h.keeps.restores, fun _ h => (VersionStatus.keeps h).restores,
    fun _ h => h.keeps.restores, fun _ h => h.keeps.restores, fun _ h => h.keeps.restores,
    fun options => options.keeps.restores, fun host _ h => (h.keeps host).restores⟩

/-!
The values below have the least and the greatest numbers of their types, texts of quotes,
backslashes, control characters and characters of four bytes, and versions of negative numbers.
-/

def TensorSpec.extreme : TensorSpec :=
  ⟨"\"\\\x00\x1f\x7f\n😀", .fp64, [-9223372036854775808, 9223372036854775807, -1]⟩

def ModelConfig.extreme : ModelConfig :=
  ⟨"", 4294967295, [.extreme, .extreme], [], ⟨.accelerator, -9223372036854775808⟩⟩

def RequestHeader.extreme : RequestHeader := ⟨18446744073709551615, 4294967295, ["", "\t/"]⟩

def HandleRange.extreme : HandleRange := ⟨"\\u0000", 18446744073709551615, 0⟩

def HandleStatus.extreme : HandleStatus := ⟨"h", "/\x0c", 0, 18446744073709551615⟩

def ResponseHeader.extreme : ResponseHeader :=
  ⟨0, "m", -9223372036854775808, 0, [⟨"y", 18446744073709551615, none⟩, ⟨"z", 0, some "\r"⟩],
    18446744073709551615⟩

def InferStats.extreme : InferStats := ⟨18446744073709551615, 0, 18446744073709551615⟩

def VersionStatus.extreme : VersionStatus := ⟨.unavailable, some "\"", .extreme⟩

def ModelStatus.extreme : ModelStatus :=
  ⟨.extreme, .ofList [(-1, .extreme), (-9223372036854775808, ⟨.ready, none, .zero⟩)]⟩

def ServerStatus.extreme : ServerStatus :=
  ⟨"s", "0.1", .stopping, true, false, -9223372036854775808, 18446744073709551615,
    .ofList [("\x08", .extreme), ("", .extreme)]⟩

def MemoryOptions.extreme : MemoryOptions :=
  ⟨some 18446744073709551615, [⟨-9223372036854775808, 0⟩, ⟨9223372036854775807, 1⟩]⟩

def ServerOptions.extreme : ServerOptions :=
  { ServerOptions.default with exitTimeout := 18446744073709551615, memory := .extreme }

theorem TensorSpec.extreme_isInRange : TensorSpec.extreme.IsInRange := by
  unfold IsInRange
  decide

theorem ModelConfig.extreme_isInRange : ModelConfig.extreme.IsInRange where
  maxBatchSize := by decide
  inputs spec h := by
    rcases List.mem_pair.1 h with rfl | rfl <;> exact TensorSpec.extreme_isInRange
  outputs spec h := nomatch h
  region := by decide

theorem InferStats.extreme_isInRange : InferStats.extreme.IsInRange :=
  ⟨by decide, by decide, by decide⟩

theorem ModelStatus.extreme_isInRange : ModelStatus.extreme.IsInRange where
  config := ModelConfig.extreme_isInRange
  versions := by
    intro e h
    rcases List.mem_pair.1 h with rfl | rfl <;> decide
  stats := by
    intro e h
    rcases List.mem_pair.1 h with rfl | rfl
    · exact ⟨by decide, by decide, by decide⟩
    · exact InferStats.extreme_isInRange

theorem ServerStatus.extreme_isInRange : ServerStatus.extreme.IsInRange where
  startedAt := by decide
  uptime := by decide
  models := by
    intro e h
    rcases List.mem_pair.1 h with rfl | rfl <;> exact ModelStatus.extreme_isInRange

theorem MemoryOptions.extreme_isInRange : MemoryOptions.extreme.IsInRange where
  hostLimit := by
    rintro limit ⟨⟩
    decide
  accelerators := by
    intro pool h
    rcases List.mem_pair.1 h with rfl | rfl <;> exact ⟨by decide, by decide⟩

theorem blobs_restore_extreme_values :
    Blob.Restores TensorSpec.toJson TensorSpec.ofJson? .extreme ∧
    Blob.Restores ModelConfig.toJson ModelConfig.ofJson? .extreme ∧
    Blob.Restores RequestHeader.toJson RequestHeader.ofJson? .extreme ∧
    Blob.Restores HandleRange.toJson HandleRange.ofJson? .extreme ∧
    Blob.Restores HandleStatus.toJson HandleStatus.ofJson? .extreme ∧
    Blob.Restores ResponseHeader.toJson ResponseHeader.ofJson? .extreme ∧
    Blob.Restores InferStats.toJson InferStats.ofJson? .extreme ∧
    Blob.Restores VersionStatus.toJson VersionStatus.ofJson? .extreme ∧
    Blob.Restores ModelStatus.toJson ModelStatus.ofJson? .extreme ∧
    Blob.Restores ServerStatus.toJson ServerStatus.ofJson? .extreme ∧
    Blob.Restores MemoryOptions.toJson MemoryOptions.ofJson? .extreme ∧
    Blob.Restores LoggingOptions.toJson LoggingOptions.ofJson? ⟨"\x01", none⟩ ∧
    Blob.Restores ServerOptions.toJson ServerOptions.ofJson? .extreme := by
  obtain ⟨hspec, hconfig, hrequest, hrange, hhandle, hresponse, hstats, hversion, hmodel, hserver,
    hmemory, hlogging, hoptions⟩ := blobs_restore_values
  exact ⟨hspec _ TensorSpec.extreme_isInRange, hconfig _ ModelConfig.extreme_isInRange,
    hrequest _ ⟨by decide, by decide⟩, hrange _ ⟨by decide, by decide⟩,
    hhandle _ ⟨by decide, by decide⟩,
    hresponse _ ⟨by decide, by decide, by decide, by decide, by decide⟩,
    hstats _ InferStats.extreme_isInRange, hversion _ InferStats.extreme_isInRange,
    hmodel _ ModelStatus.extreme_isInRange, hserver _ ServerStatus.extreme_isInRange,
    hmemory _ MemoryOptions.extreme_isInRange, hlogging _,
    hoptions _ _ ⟨by decide, by decide, MemoryOptions.extreme_isInRange⟩⟩

end InferenceEngine
