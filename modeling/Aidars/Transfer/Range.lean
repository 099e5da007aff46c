import Aidars.Cas.Adapter
import Aidars.Foundations.Decimal

/-!
# Byte ranges

A worker streams an asset from a `Range` header: `parseByteRangeHeader` reads the header,
`openAssetStream` seeks to the first byte and `generateBoundedChunks` sends the bytes in chunks.

The chunks of an answer are the bytes that the header asks for, whatever their size
(`flatten_generateBoundedChunks`). `streamAsset_iff` says for which headers the answer is the one
asked for: `int` converts texts up to a number of digits only, and a header with a longer number is
answered as if it were malformed, with the whole asset.
-/

namespace Aidars

/-! ## The header -/

/-- The pattern `^bytes=(\d+)-(\d+)?$`, with the texts of its groups. -/
def rangeHeaderRegex (cleaned : List Char) : Option (List Char × Option (List Char)) :=
  if "bytes=".toList.isPrefixOf cleaned then
    let rest := cleaned.drop 6
    let startStr := rest.takeWhile isDecimalDigit
    match rest.dropWhile isDecimalDigit with
    | '-' :: rest =>
      let endStr := rest.takeWhile isDecimalDigit
      let left := rest.dropWhile isDecimalDigit
      if startStr ≠ [] ∧ (left = [] ∨ left = ['\n']) then
        some (startStr, if endStr = [] then none else some endStr)
      else none
    | _ => none
  else none

/-- An error of `parse_byte_range_header`. The first two are value errors, the others index
errors. -/
inductive RangeError
  | invalidSyntax (rangeHeader : String)
  | tooManyDigits (digits : ℕ)
  | emptyFile
  | startOutOfBounds (start totalSize : ℕ)
  | endBeforeStart (stop start : ℕ)
  deriving DecidableEq

/-- The requested range is unsatisfiable. -/
def RangeError.isIndexError : RangeError → Bool
  | .invalidSyntax _ | .tooManyDigits _ => false
  | .emptyFile | .startOutOfBounds .. | .endBeforeStart .. => true

/-- The first and the last byte to send, their number, and whether the content is partial. -/
structure ByteRange where
  start : ℕ
  stop : ℕ
  contentLength : ℕ
  isPartial : Bool
  deriving DecidableEq

/-- The range of the full content. -/
def ByteRange.full (totalSize : ℕ) : ByteRange := ⟨0, totalSize - 1, totalSize, false⟩

/-- Convert a group of the pattern. -/
def convert (maxStrDigits : ℕ) (digits : List Char) : Except RangeError ℕ :=
  match pyInt maxStrDigits digits with
  | some n => .ok n
  | none => .error (.tooManyDigits digits.length)

/-- Read a `Range` header for a file of a given size. -/
def parseByteRangeHeader (maxStrDigits : ℕ) (rangeHeader : Option String) (totalSize : ℕ) :
    Except RangeError ByteRange :=
  match rangeHeader with
  | none => .ok (.full totalSize)
  | some header =>
    let cleaned := strip header.toList
    if cleaned = [] then .ok (.full totalSize)
    else
      match rangeHeaderRegex cleaned with
      | none => .error (.invalidSyntax header)
      | some (startStr, endStr) => do
        let start ← convert maxStrDigits startStr
        if totalSize = 0 then
          if start = 0 then .ok ⟨0, 0, 0, true⟩ else .error .emptyFile
        else if totalSize ≤ start then .error (.startOutOfBounds start totalSize)
        else
          match endStr with
          | some endStr => do
            let stop ← convert maxStrDigits endStr
            if stop < start then .error (.endBeforeStart stop start)
            else
              let stop := min stop (totalSize - 1)
              .ok ⟨start, stop, stop + 1 - start, true⟩
          | none => .ok ⟨start, totalSize - 1, totalSize - 1 + 1 - start, true⟩

/-! ## The stream -/

/-- The loop of `generate_bounded_chunks`; the fuel bounds the number of bytes to send. -/
def boundedChunks (chunkSize : ℕ) : ℕ → ℕ → Bytes → List Bytes
  | 0, _, _ => []
  | fuel + 1, bytesRemaining, stream =>
    if bytesRemaining = 0 then []
    else
      let chunk := stream.take (min chunkSize bytesRemaining)
      if chunk = [] then []
      else chunk :: boundedChunks chunkSize fuel (bytesRemaining - chunk.length)
        (stream.drop chunk.length)

/-- The chunks that are read of a stream. -/
def generateBoundedChunks (stream : Bytes) (bytesToSend : ℕ) (chunkSize : ℤ) : List Bytes :=
  boundedChunks (max 1024 chunkSize).toNat bytesToSend bytesToSend stream

/-- The size of the chunks if none is configured. -/
def defaultChunkSize : ℤ := 1024 * 1024

/-- An error that an endpoint answers with. -/
inductive HTTPException
  | invalidHash (error : ValueError)
  | notFound (detail : String)
  deriving DecidableEq

/-- The status of an error. -/
def HTTPException.statusCode : HTTPException → ℕ
  | .invalidHash _ => 400
  | .notFound _ => 404

/-- A streaming answer: its status, the headers that are read, and the chunks that are sent. -/
structure StreamResponse where
  statusCode : ℕ
  contentLength : Option ℕ := none
  contentRange : Option String := none
  assetSha256 : Option String := none
  chunks : List Bytes := []
  deriving DecidableEq

/-- The range to serve: none if it is unsatisfiable, the full content if the header is malformed. -/
def servedRange (maxStrDigits : ℕ) (range : Option String) (totalSize : ℕ) : Option ByteRange :=
  match parseByteRangeHeader maxStrDigits range totalSize with
  | .ok r => some r
  | .error e => if e.isIndexError then none else some (.full totalSize)

namespace LocalCASAdapter

/-- What is read of an asset from an offset on. -/
def openAssetStream (cas : LocalCASAdapter) (sha256Hex : String) (offset : ℕ) :
    Except HTTPException Bytes :=
  let unable := fun detail : String => Except.error (HTTPException.notFound
    ("Unable to open stream for asset " ++ sha256Hex ++ ": " ++ detail))
  match cas.objects.get? sha256Hex with
  | none => unable ("Asset " ++ sha256Hex ++ " not found in local CAS")
  | some data =>
    if data.length < offset then
      unable ("Offset " ++ toString offset ++ " exceeds total file size " ++ toString data.length)
    else .ok (data.drop offset)

/-- Stream an asset. -/
def streamAsset (maxStrDigits : ℕ) (cas : LocalCASAdapter) (chunkSizeBytes : ℤ)
    (sha256 : String) (range : Option String) : Except HTTPException StreamResponse :=
  match validateSha256Hex sha256 with
  | .error e => .error (.invalidHash e)
  | .ok normSha256 =>
    match cas.objects.get? normSha256 with
    | none => .error (.notFound ("Asset " ++ normSha256 ++ " not found in local CAS."))
    | some data =>
      let totalSize := data.length
      match servedRange maxStrDigits range totalSize with
      | none => .ok { statusCode := 416, contentRange := some ("bytes */" ++ toString totalSize) }
      | some r => do
        let stream ← cas.openAssetStream normSha256 r.start
        let chunkSize := if chunkSizeBytes = 0 then defaultChunkSize else chunkSizeBytes
        .ok {
          statusCode := if r.isPartial then 206 else 200
          contentLength := some r.contentLength
          contentRange :=
            if r.isPartial then
              some ("bytes " ++ toString r.start ++ "-" ++ toString r.stop ++ "/" ++
                toString totalSize)
            else none
          assetSha256 := some normSha256
          chunks := generateBoundedChunks stream r.contentLength chunkSize }

end LocalCASAdapter

/-! ## Chunks -/

theorem flatten_boundedChunks {chunkSize : ℕ} (hsize : 0 < chunkSize) {fuel bytesRemaining : ℕ}
    (hfuel : bytesRemaining ≤ fuel) (stream : Bytes) :
    (boundedChunks chunkSize fuel bytesRemaining stream).flatten = stream.take bytesRemaining := by
  induction fuel generalizing bytesRemaining stream with
  | zero =>
    obtain rfl : bytesRemaining = 0 := by omega
    simp [boundedChunks]
  | succ fuel ih =>
    unfold boundedChunks
    dsimp only
    split_ifs with hzero hchunk
    · simp [hzero]
    · have hstream : stream = [] := by
        rw [List.take_eq_nil_iff] at hchunk
        exact hchunk.resolve_left (by omega)
      simp [hstream]
    · set chunk := stream.take (min chunkSize bytesRemaining) with hdef
      have hlength : chunk.length = min (min chunkSize bytesRemaining) stream.length :=
        List.length_take
      have hpos : 0 < chunk.length := List.length_pos_of_ne_nil hchunk
      have hchunk' : stream.take chunk.length = chunk := by
        rw [hlength, ← List.take_eq_take_min, hdef]
      have hsplit : bytesRemaining = chunk.length + (bytesRemaining - chunk.length) := by omega
      rw [List.flatten_cons, ih (by omega)]
      conv_rhs => rw [hsplit, List.take_add, hchunk']

/-- **The chunks are the bytes to send**, whatever their size. -/
theorem flatten_generateBoundedChunks (stream : Bytes) (bytesToSend : ℕ) (chunkSize : ℤ) :
    (generateBoundedChunks stream bytesToSend chunkSize).flatten = stream.take bytesToSend :=
  flatten_boundedChunks (by omega) le_rfl stream

/-! ## The bytes that a header asks for -/

/-- The numbers of a well formed header. -/
def askedTexts (range : Option String) : Option (List Char × Option (List Char)) :=
  range.bind fun header => rangeHeaderRegex (strip header.toList)

/-- The header is well formed, and its range starts behind the asset or ends before it starts. -/
def Unsatisfiable (range : Option String) (totalSize : ℕ) : Prop :=
  ∃ startStr endStr, askedTexts range = some (startStr, endStr) ∧
    ((totalSize ≤ digitsValue startStr ∧ ¬ (digitsValue startStr = 0 ∧ totalSize = 0)) ∨
      ∃ stop ∈ endStr, digitsValue stop < digitsValue startStr)

/-- The bytes of the range, and all of them if the header is absent or malformed. -/
def askedBytes (range : Option String) (content : Bytes) : Bytes :=
  match askedTexts range with
  | none => content
  | some (startStr, none) => content.drop (digitsValue startStr)
  | some (startStr, some endStr) =>
    (content.take (digitsValue endStr + 1)).drop (digitsValue startStr)

/-- The numbers that are read of a header are not too long. -/
def Readable (maxStrDigits : ℕ) (range : Option String) (totalSize : ℕ) : Prop :=
  ∀ startStr endStr, askedTexts range = some (startStr, endStr) →
    Converts maxStrDigits startStr ∧
      (digitsValue startStr < totalSize → ∀ stop ∈ endStr, Converts maxStrDigits stop)

variable {maxStrDigits : ℕ} {range : Option String} {content : Bytes}

theorem rangeHeaderRegex_nil : rangeHeaderRegex [] = none := by
  decide

/-- A range that is served: it starts within the content and is what was asked for. -/
def ByteRange.Sends (r : ByteRange) (content body : Bytes) : Prop :=
  r.start ≤ content.length ∧ (content.drop r.start).take r.contentLength = body ∧
    r.contentLength = body.length

theorem sends_full (content : Bytes) :
    (ByteRange.full content.length).Sends content content := by
  simp [ByteRange.Sends, ByteRange.full]

theorem sends_stop {start stop : ℕ} (hstart : start < content.length) :
    ByteRange.Sends ⟨start, min stop (content.length - 1),
      min stop (content.length - 1) + 1 - start, true⟩ content
      ((content.take (stop + 1)).drop start) := by
  refine ⟨hstart.le, ?_, ?_⟩
  · rw [List.drop_take]
    dsimp only
    rw [List.take_eq_take_iff, List.length_drop]
    omega
  · rw [List.length_drop, List.length_take]
    dsimp only
    omega

theorem sends_rest {start : ℕ} (hstart : start < content.length) :
    ByteRange.Sends ⟨start, content.length - 1, content.length - 1 + 1 - start, true⟩ content
      (content.drop start) := by
  refine ⟨hstart.le, ?_, ?_⟩
  · rw [List.take_eq_self_iff, List.length_drop]
    dsimp only
    omega
  · rw [List.length_drop]
    dsimp only
    omega

theorem servedRange_of_malformed (h : askedTexts range = none) (totalSize : ℕ) :
    servedRange maxStrDigits range totalSize = some (.full totalSize) := by
  unfold servedRange parseByteRangeHeader
  cases range with
  | none => rfl
  | some header =>
    have hregex : rangeHeaderRegex (strip header.toList) = none := h
    dsimp only
    by_cases hblank : strip header.toList = []
    · rw [if_pos hblank]
    · rw [if_neg hblank, hregex]
      rfl

/-- What a well formed header is answered with. -/
theorem servedRange_of_wellFormed {startStr : List Char} {endStr : Option (List Char)}
    (h : askedTexts range = some (startStr, endStr)) (totalSize : ℕ) :
    servedRange maxStrDigits range totalSize =
      if ¬ Converts maxStrDigits startStr then some (.full totalSize)
      else if totalSize = 0 then
        if digitsValue startStr = 0 then some ⟨0, 0, 0, true⟩ else none
      else if totalSize ≤ digitsValue startStr then none
      else
        match endStr with
        | none => some ⟨digitsValue startStr, totalSize - 1,
            totalSize - 1 + 1 - digitsValue startStr, true⟩
        | some endStr =>
          if ¬ Converts maxStrDigits endStr then some (.full totalSize)
          else if digitsValue endStr < digitsValue startStr then none
          else some ⟨digitsValue startStr, min (digitsValue endStr) (totalSize - 1),
            min (digitsValue endStr) (totalSize - 1) + 1 - digitsValue startStr, true⟩ := by
  cases range with
  | none => cases h
  | some header =>
    have hregex : rangeHeaderRegex (strip header.toList) = some (startStr, endStr) := h
    have hblank : strip header.toList ≠ [] := by
      intro hblank
      rw [hblank, rangeHeaderRegex_nil] at hregex
      cases hregex
    unfold servedRange parseByteRangeHeader convert pyInt
    dsimp only
    rw [if_neg hblank, hregex]
    dsimp only
    by_cases hstart : Converts maxStrDigits startStr
    · simp only [hstart, if_true, not_true_eq_false, if_false]
      change (match (if totalSize = 0 then _ else _ : Except RangeError ByteRange) with
        | .ok r => some r
        | .error e => if e.isIndexError then none else some (.full totalSize)) = _
      by_cases hzero : totalSize = 0
      · rw [if_pos hzero, if_pos hzero]
        split_ifs <;> rfl
      · rw [if_neg hzero, if_neg hzero]
        by_cases hle : totalSize ≤ digitsValue startStr
        · rw [if_pos hle, if_pos hle]
          rfl
        · rw [if_neg hle, if_neg hle]
          cases endStr with
          | none => rfl
          | some endStr =>
            by_cases hend : Converts maxStrDigits endStr
            · simp only [hend, if_true, not_true_eq_false, if_false]
              change (match (if _ < _ then _ else _ : Except RangeError ByteRange) with
                | .ok r => some r
                | .error e => if e.isIndexError then none else some (.full totalSize)) = _
              split_ifs <;> rfl
            · simp only [hend, if_false, not_false_eq_true, if_true]
              rfl
    · simp only [hstart, if_false, not_false_eq_true, if_true]
      rfl

/-- A header that asks for nothing is answered as unsatisfiable. -/
theorem servedRange_eq_none (hread : Readable maxStrDigits range content.length)
    (h : Unsatisfiable range content.length) :
    servedRange maxStrDigits range content.length = none := by
  obtain ⟨startStr, endStr, htexts, hbad⟩ := h
  obtain ⟨hstart, hend⟩ := hread startStr endStr htexts
  rw [servedRange_of_wellFormed htexts, if_neg (not_not_intro hstart)]
  split_ifs with hzero hstart0 hle
  · obtain ⟨-, hnot⟩ | ⟨stop, -, hlt⟩ := hbad
    · exact absurd ⟨hstart0, hzero⟩ hnot
    · omega
  · rfl
  · rfl
  · obtain ⟨hle', -⟩ | ⟨stop, hstop, hlt⟩ := hbad
    · exact absurd hle' hle
    · obtain rfl := Option.mem_def.1 hstop
      have hconv := hend (not_le.1 hle) stop rfl
      simp only [hconv, hlt, not_true_eq_false, if_false, if_true]

/-- Any other header is answered with the bytes it asks for. -/
theorem exists_servedRange (hread : Readable maxStrDigits range content.length)
    (h : ¬ Unsatisfiable range content.length) :
    ∃ r, servedRange maxStrDigits range content.length = some r ∧
      r.Sends content (askedBytes range content) := by
  unfold askedBytes
  cases htexts : askedTexts range with
  | none => exact ⟨_, servedRange_of_malformed htexts _, sends_full content⟩
  | some texts =>
    obtain ⟨startStr, endStr⟩ := texts
    obtain ⟨hstart, hend⟩ := hread startStr endStr htexts
    have hsat : ∀ p, ((content.length ≤ digitsValue startStr ∧
        ¬ (digitsValue startStr = 0 ∧ content.length = 0)) ∨
        ∃ stop ∈ endStr, digitsValue stop < digitsValue startStr) → p :=
      fun p hbad => absurd ⟨startStr, endStr, htexts, hbad⟩ h
    rw [servedRange_of_wellFormed htexts, if_neg (not_not_intro hstart)]
    by_cases hzero : content.length = 0
    · obtain rfl := List.length_eq_zero_iff.1 hzero
      by_cases hstart0 : digitsValue startStr = 0
      · rw [if_pos hzero, if_pos hstart0]
        refine ⟨_, rfl, ?_⟩
        cases endStr <;> simp [ByteRange.Sends]
      · exact hsat _ (.inl ⟨by simp, fun hboth => hstart0 hboth.1⟩)
    · by_cases hle : content.length ≤ digitsValue startStr
      · exact hsat _ (.inl ⟨hle, fun hboth => hzero hboth.2⟩)
      · rw [if_neg hzero, if_neg hle]
        cases endStr with
        | none => exact ⟨_, rfl, sends_rest (not_le.1 hle)⟩
        | some endStr =>
          have hconv := hend (not_le.1 hle) endStr rfl
          by_cases hlt : digitsValue endStr < digitsValue startStr
          · exact hsat _ (.inr ⟨endStr, rfl, hlt⟩)
          · simp only [hconv, hlt, not_true_eq_false, if_false]
            exact ⟨_, rfl, sends_stop (not_le.1 hle)⟩

/-- A header with a number that is too long is answered with the full content. -/
theorem servedRange_of_not_readable (hread : ¬ Readable maxStrDigits range content.length) :
    servedRange maxStrDigits range content.length = some (.full content.length) := by
  unfold Readable at hread
  push Not at hread
  obtain ⟨startStr, endStr, htexts, hlong⟩ := hread
  rw [servedRange_of_wellFormed htexts]
  by_cases hstart : Converts maxStrDigits startStr
  · obtain ⟨hlt, stop, hstop, hconv⟩ := hlong hstart
    obtain rfl := Option.mem_def.1 hstop
    have hzero : content.length ≠ 0 := by omega
    simp only [hstart, hconv, hzero, not_le.2 hlt, not_true_eq_false, not_false_eq_true, if_false,
      if_true]
  · rw [if_pos hstart]

/-! ## The answer -/

namespace LocalCASAdapter

variable {cas : LocalCASAdapter} {sha256 norm : String}

theorem streamAsset_unsatisfiable (hval : validateSha256Hex sha256 = .ok norm)
    (hget : cas.objects.get? norm = some content)
    (hserved : servedRange maxStrDigits range content.length = none) (chunkSizeBytes : ℤ) :
    streamAsset maxStrDigits cas chunkSizeBytes sha256 range =
      .ok { statusCode := 416
            contentRange := some ("bytes */" ++ toString content.length) } := by
  rw [streamAsset, hval]
  dsimp only
  rw [hget]
  dsimp only
  rw [hserved]

theorem streamAsset_served (hval : validateSha256Hex sha256 = .ok norm)
    (hget : cas.objects.get? norm = some content) {r : ByteRange} {body : Bytes}
    (hserved : servedRange maxStrDigits range content.length = some r)
    (hsends : r.Sends content body) (chunkSizeBytes : ℤ) :
    ∃ answer, streamAsset maxStrDigits cas chunkSizeBytes sha256 range = .ok answer ∧
      answer.statusCode = (if r.isPartial then 206 else 200) ∧
      answer.contentLength = some body.length ∧ answer.chunks.flatten = body := by
  obtain ⟨hstart, hbody, hlength⟩ := hsends
  rw [streamAsset, hval]
  dsimp only
  rw [hget]
  dsimp only
  rw [hserved]
  dsimp only
  have hopen : cas.openAssetStream norm r.start = .ok (content.drop r.start) := by
    rw [openAssetStream, hget]
    exact if_neg (by omega)
  rw [hopen]
  exact ⟨_, rfl, rfl, congrArg some hlength, (flatten_generateBoundedChunks _ _ _).trans hbody⟩

/-- The answer to a header, for chunks of any size: it is `416` if the header is well formed and
unsatisfiable, and otherwise the bytes that the header asks for, with their number. -/
structure Serves (answer : ℤ → Except HTTPException StreamResponse) (range : Option String)
    (content : Bytes) : Prop where
  unsatisfiable n : (∃ r, answer n = .ok r ∧ r.statusCode = 416) ↔
    Unsatisfiable range content.length
  body n : ¬ Unsatisfiable range content.length → ∃ r, answer n = .ok r ∧
    r.chunks.flatten = askedBytes range content ∧
    r.contentLength = some (askedBytes range content).length

/-- The first bytes of the content are completed by the answer to a request for the others. -/
def Resumes (answer : ℤ → Option String → Except HTTPException StreamResponse) (n : ℕ)
    (content : Bytes) : Prop :=
  ∀ chunkSize, ∃ r, answer chunkSize (some ("bytes=" ++ toString n ++ "-")) = .ok r ∧
    content.take n ++ r.chunks.flatten = content

end LocalCASAdapter

theorem isSpace_of_isDigit {c : Char} (h : c.isDigit) : isSpace c = false := by
  obtain ⟨hlow, hhigh⟩ := Char.isDigit_iff_toNat.1 h
  have hlow' : 48 ≤ c.toNat := hlow
  have hhigh' : c.toNat ≤ 57 := hhigh
  simp only [isSpace, Bool.or_eq_false_iff, Bool.and_eq_false_iff, decide_eq_false_iff_not,
    beq_eq_false_iff_ne, ne_eq]
  omega

/-- The text of a request for the bytes from an offset on. -/
def requestFrom (digits : List Char) : String :=
  String.ofList ("bytes=".toList ++ (digits ++ ['-']))

theorem askedTexts_requestFrom {digits : List Char} (hne : digits ≠ [])
    (hdigit : ∀ c ∈ digits, c.isDigit) :
    askedTexts (some (requestFrom digits)) = some (digits, none) := by
  have hname : ∀ c ∈ "bytes=".toList, (!isSpace c) = true :=
    List.all_eq_true.1 (by decide)
  have hstrip : strip ("bytes=".toList ++ (digits ++ ['-'])) =
      "bytes=".toList ++ (digits ++ ['-']) := by
    refine strip_of_all_not fun c hc => ?_
    rcases List.mem_append.1 hc with hc | hc
    · simpa using hname c hc
    · rcases List.mem_append.1 hc with hc | hc
      · exact isSpace_of_isDigit (hdigit c hc)
      · obtain rfl := List.mem_singleton.1 hc
        rfl
  obtain ⟨htake, hdrop⟩ := span_digits []
    (fun c hc => isDecimalDigit_of_isDigit (hdigit c hc)) (by decide : isDecimalDigit '-' = false)
  change rangeHeaderRegex (strip (String.ofList _).toList) = _
  rw [String.toList_ofList, hstrip, rangeHeaderRegex, if_pos (by simp)]
  have hrest : ("bytes=".toList ++ (digits ++ ['-'])).drop 6 = digits ++ ['-'] :=
    List.drop_left' (by decide)
  simp only [hrest, htake, hdrop]
  simp [hne]

theorem askedTexts_resume (n : ℕ) :
    askedTexts (some ("bytes=" ++ toString n ++ "-")) = some (Nat.toDigits 10 n, none) := by
  have hdigit : ∀ c ∈ Nat.toDigits 10 n, c.isDigit :=
    fun c hc => Nat.isDigit_of_mem_toDigits (by omega) (by omega) hc
  have htoList : ("bytes=" ++ toString n ++ "-").toList =
      "bytes=".toList ++ (Nat.toDigits 10 n ++ ['-']) := by
    have hnumber : (toString n).toList = Nat.toDigits 10 n := Nat.toList_repr
    have hdash : "-".toList = ['-'] := rfl
    rw [String.toList_append, String.toList_append, hnumber, hdash, List.append_assoc]
  have htext : requestFrom (Nat.toDigits 10 n) = "bytes=" ++ toString n ++ "-" :=
    (congrArg String.ofList htoList.symm).trans String.ofList_toList
  have hasked := askedTexts_requestFrom Nat.toDigits_ne_nil hdigit
  rwa [htext] at hasked

namespace LocalCASAdapter

variable {cas : LocalCASAdapter} {sha256 norm : String}

/-- **When a header is answered with what it asks for**: if its numbers can be read, or if it asks
for the whole asset anyhow. -/
theorem serves_iff (hval : validateSha256Hex sha256 = .ok norm)
    (hget : cas.objects.get? norm = some content) (range : Option String) :
    Serves (fun n => streamAsset maxStrDigits cas n sha256 range) range content ↔
      Readable maxStrDigits range content.length ∨
        (¬ Unsatisfiable range content.length ∧ askedBytes range content = content) := by
  -- an answer with a body is not `416`
  have hstatus {n : ℤ} {r : ByteRange} {answer : StreamResponse}
      (hanswer : streamAsset maxStrDigits cas n sha256 range = .ok answer)
      (hcode : answer.statusCode = if r.isPartial then 206 else 200) :
      ¬ ∃ r, streamAsset maxStrDigits cas n sha256 range = .ok r ∧ r.statusCode = 416 := by
    rintro ⟨answer', hanswer', hcode'⟩
    obtain rfl := Except.ok.inj (hanswer.symm.trans hanswer')
    rw [hcode'] at hcode
    split_ifs at hcode <;> cases hcode
  have hserve {r : ByteRange} (hsat : ¬ Unsatisfiable range content.length)
      (hserved : servedRange maxStrDigits range content.length = some r)
      (hsends : r.Sends content (askedBytes range content)) :
      Serves (fun n => streamAsset maxStrDigits cas n sha256 range) range content := by
    constructor
    · intro n
      obtain ⟨answer, hanswer, hcode, -⟩ := streamAsset_served hval hget hserved hsends n
      exact iff_of_false (hstatus hanswer hcode) hsat
    · intro n _
      obtain ⟨answer, hanswer, -, hlength, hbody⟩ := streamAsset_served hval hget hserved hsends n
      exact ⟨answer, hanswer, hbody, hlength⟩
  by_cases hread : Readable maxStrDigits range content.length
  · refine iff_of_true ?_ (.inl hread)
    by_cases hsat : Unsatisfiable range content.length
    · have hnone := servedRange_eq_none hread hsat
      have hanswer (n : ℤ) := streamAsset_unsatisfiable hval hget hnone n
      exact ⟨fun n => iff_of_true ⟨_, hanswer n, rfl⟩ hsat, fun n h => absurd hsat h⟩
    · obtain ⟨r, hserved, hsends⟩ := exists_servedRange hread hsat
      exact hserve hsat hserved hsends
  · rw [or_iff_right hread]
    have hfull : servedRange maxStrDigits range content.length = some (.full content.length) :=
      servedRange_of_not_readable hread
    obtain ⟨answer, hanswer, hcode, -, hbody⟩ :=
      streamAsset_served hval hget hfull (sends_full content) 0
    constructor
    · intro h
      have hsat : ¬ Unsatisfiable range content.length :=
        fun hsat => hstatus hanswer hcode ((h.unsatisfiable 0).2 hsat)
      obtain ⟨answer', hanswer', hbody', -⟩ := h.body 0 hsat
      obtain rfl := Except.ok.inj (hanswer.symm.trans hanswer')
      exact ⟨hsat, hbody'.symm.trans hbody⟩
    · rintro ⟨hsat, hasked⟩
      refine hserve hsat hfull ?_
      rw [hasked]
      exact sends_full content

theorem not_unsatisfiable_resume {n : ℕ} (hn : n < content.length) :
    ¬ Unsatisfiable (some ("bytes=" ++ toString n ++ "-")) content.length := by
  rintro ⟨startStr, endStr, htexts, hbad⟩
  rw [askedTexts_resume, Option.some.injEq, Prod.mk.injEq] at htexts
  obtain ⟨rfl, rfl⟩ := htexts
  rw [digitsValue_toDigits] at hbad
  obtain ⟨hle, -⟩ | ⟨stop, hstop, -⟩ := hbad
  · omega
  · cases hstop

theorem askedBytes_resume (n : ℕ) :
    askedBytes (some ("bytes=" ++ toString n ++ "-")) content = content.drop n := by
  rw [askedBytes, askedTexts_resume]
  dsimp only
  rw [digitsValue_toDigits]

theorem readable_resume {n totalSize : ℕ} :
    Readable maxStrDigits (some ("bytes=" ++ toString n ++ "-")) totalSize ↔
      Converts maxStrDigits (Nat.toDigits 10 n) := by
  unfold Readable
  rw [askedTexts_resume]
  constructor
  · intro h
    exact (h _ _ rfl).1
  · intro h startStr endStr heq
    obtain ⟨rfl, rfl⟩ := Prod.mk.inj (Option.some.inj heq)
    exact ⟨h, fun _ stop hstop => by cases hstop⟩

/-- The first bytes are completed if the interpreter converts their number. -/
theorem resumes_iff (hval : validateSha256Hex sha256 = .ok norm)
    (hget : cas.objects.get? norm = some content) {n : ℕ} (hn : n < content.length) :
    Resumes (fun k range => streamAsset maxStrDigits cas k sha256 range) n content ↔
      Converts maxStrDigits (Nat.toDigits 10 n) := by
  constructor
  · intro h
    by_contra hlong
    have hfull : servedRange maxStrDigits (some ("bytes=" ++ toString n ++ "-")) content.length =
        some (.full content.length) := servedRange_of_not_readable (readable_resume.not.2 hlong)
    obtain ⟨answer, hanswer, -, -, hbody⟩ :=
      streamAsset_served hval hget hfull (sends_full content) 0
    obtain ⟨answer', hanswer', htwice⟩ := h 0
    obtain rfl := Except.ok.inj (hanswer.symm.trans hanswer')
    have hlength := congrArg List.length htwice
    rw [hbody, List.length_append, List.length_take] at hlength
    obtain rfl : n = 0 := by omega
    refine hlong ?_
    unfold Converts
    rw [Nat.toDigits_zero, List.length_singleton]
    omega
  · intro hconv k
    obtain ⟨r, hserved, hsends⟩ :=
      exists_servedRange (readable_resume.2 hconv) (not_unsatisfiable_resume hn)
    obtain ⟨answer, hanswer, -, -, hbody⟩ := streamAsset_served hval hget hserved hsends k
    refine ⟨answer, hanswer, ?_⟩
    rw [hbody, askedBytes_resume, List.take_append_drop]

/-- **Byte ranges.** The answer to a header is what the header asks for exactly if its numbers can
be read or it asks for the whole asset, and the first bytes of an asset are completed by the answer
to a request for the others exactly if their number can be read. -/
theorem streamAsset_iff (hval : validateSha256Hex sha256 = .ok norm)
    (hget : cas.objects.get? norm = some content) :
    (∀ range, Serves (fun k => streamAsset maxStrDigits cas k sha256 range) range content ↔
      Readable maxStrDigits range content.length ∨
        (¬ Unsatisfiable range content.length ∧ askedBytes range content = content)) ∧
    ∀ n < content.length,
      (Resumes (fun k range => streamAsset maxStrDigits cas k sha256 range) n content ↔
        Converts maxStrDigits (Nat.toDigits 10 n)) :=
  ⟨serves_iff hval hget, fun _ hn => resumes_iff hval hget hn⟩

/-- The hash of the asset in the sample store. -/
def sampleHash : String := "a12871fee210fb8619291eaea194581cbd2531e4b23759d225f6806923f63222"

/-- A store with an asset of two bytes. -/
def sampleStore : LocalCASAdapter where
  objects := Dict.set ∅ sampleHash [1, 2]

/-- The last byte of an asset of two bytes. -/
theorem streamAsset_lastByte :
    Serves (fun k => streamAsset 4300 sampleStore k sampleHash (some "bytes=1-5"))
      (some "bytes=1-5") [1, 2] := by
  have hval : validateSha256Hex sampleHash = .ok sampleHash := by
    decide +kernel
  have hget : sampleStore.objects.get? sampleHash = some [1, 2] := by
    decide +kernel
  refine ((streamAsset_iff hval hget).1 _).2 (.inl fun startStr endStr htexts => ?_)
  have hasked : askedTexts (some "bytes=1-5") = some (['1'], some ['5']) := by
    decide +kernel
  obtain ⟨rfl, rfl⟩ := Prod.mk.inj (Option.some.inj (hasked.symm.trans htexts))
  refine ⟨by decide, fun _ stop hstop => ?_⟩
  obtain rfl := Option.some.inj hstop
  decide

/-- A number of 4301 digits is not read: a range behind the asset is answered with all of it. -/
theorem longNumber_served :
    ¬ ∀ range, Serves (fun k => streamAsset 4300 sampleStore k sampleHash range) range [1, 2] := by
  intro hclaim
  have hval : validateSha256Hex sampleHash = .ok sampleHash := by
    decide +kernel
  have hget : sampleStore.objects.get? sampleHash = some [1, 2] := by
    decide +kernel
  have hasked : askedTexts (some (requestFrom (List.replicate 4301 '9'))) =
      some (List.replicate 4301 '9', none) :=
    askedTexts_requestFrom (List.ne_nil_of_length_pos (by rw [List.length_replicate]; omega))
      fun c hc => List.eq_of_mem_replicate hc ▸ rfl
  have hlong : ¬ Converts 4300 (List.replicate 4301 '9') := by
    unfold Converts
    rw [List.length_replicate]
    omega
  have hvalue : 2 ≤ digitsValue (List.replicate 4301 '9') := by
    decide +kernel
  obtain hread | ⟨hsat, -⟩ := (serves_iff hval hget _).1
    (hclaim (some (requestFrom (List.replicate 4301 '9'))))
  · exact hlong (hread _ _ hasked).1
  · exact hsat ⟨_, _, hasked, .inl ⟨hvalue, fun hboth => absurd hboth.2 (by decide)⟩⟩

end LocalCASAdapter

end Aidars
