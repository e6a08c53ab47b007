import DevOpsAssistant.Text.Utf8
import DevOpsAssistant.Utils.Filename

/-!
# Validation of uploaded logs

* `UploadFile`, `UploadLimits`, `UploadError`: what is uploaded, the limits, and a refusal.
* `looksBinary`, `readAndValidateUpload`: the checks.
* **`readAndValidateUpload_eq_ok`**: the files that pass all of them.
* `IsTextLog`: a text log within the limits.
* `isDisallowed_iff`: the bytes of such a log that are disallowed are those outside ASCII.
* **`readAndValidateUpload_iff`**: which text logs are accepted.
-/

namespace DevOps

open Text

/-- The settings that limit uploads. -/
structure UploadLimits where
  maxFilenameLength : ℕ
  maxUploadSizeMb : ℕ
  maxLogTextSizeBytes : ℕ
  maxLogLines : ℕ

namespace UploadLimits

/-- `max_upload_size_bytes`. -/
def maxUploadSizeBytes (limits : UploadLimits) : ℕ := limits.maxUploadSizeMb * 1024 * 1024

/-- `max_bytes`. -/
def maxBytes (limits : UploadLimits) : ℕ := min limits.maxUploadSizeBytes limits.maxLogTextSizeBytes

/-- The settings by default. -/
def default : UploadLimits := ⟨255, 5, 5242880, 100000⟩

end UploadLimits

/-- An uploaded file, with what `read` returns. -/
structure UploadFile where
  filename : Option String
  contentType : Option String
  data : List UInt8

/-- A value in the details of an error. -/
inductive UploadDetail where
  | int (n : ℕ)
  | str (s : String)
deriving DecidableEq

/-- A `ValidationAppError`. -/
structure UploadError where
  message : String
  details : List (String × UploadDetail)
deriving DecidableEq

def ALLOWED_LOG_EXTENSIONS : List String := [".log", ".txt"]

def ALLOWED_CONTENT_TYPES : List String := ["text/plain", "application/octet-stream", "text/x-log"]

/-- A byte that is neither in `_PRINTABLE_ASCII` nor in `_TEXT_CONTROL_CHARS`. -/
def isDisallowed (byte : UInt8) : Bool :=
  !(0x20 ≤ byte.toNat && byte.toNat < 0x7F) &&
    !(byte.toNat = 9 || byte.toNat = 10 || byte.toNat = 13)

/-- `_looks_binary`: more than 30 of 100 bytes are disallowed. The quotient of two lengths up to
8192 is above the float `0.30` exactly when it is above three tenths. -/
def looksBinary (data : List UInt8) : Bool :=
  let sample := data.take 8192
  3 * sample.length < 10 * sample.countP isDisallowed

/-- The number of lines, also of one without an end. -/
def lineCount (text : String) : ℕ :=
  text.toList.count '\n' + if text ≠ "" ∧ text.toList.getLast? ≠ some '\n' then 1 else 0

/-- `if bad: raise error`. -/
def refuseIf (bad : Bool) (error : UploadError) : Except UploadError Unit :=
  if bad then .error error else .ok ()

/-- A content type that is refused; a missing one is not. -/
def isRefusedType (contentType : Option String) : Bool :=
  contentType.any fun t => t ≠ "" && !ALLOWED_CONTENT_TYPES.contains t

/-- `data.decode("utf-8")`. -/
def decodeUpload (data : List UInt8) : Except UploadError String :=
  match Utf8.decode? data with
  | some text => .ok text
  | none => .error ⟨"Uploaded file must be valid UTF-8 text.", []⟩

/-- The letters of a suffix that is allowed have no other forms in upper case outside ASCII. -/
def readAndValidateUpload (limits : UploadLimits) (file : UploadFile) :
    Except UploadError String := do
  let rawFilename := (file.filename.getD "").toList
  refuseIf (limits.maxFilenameLength < rawFilename.length)
    ⟨"Filename exceeds maximum allowed length.",
      [("max_filename_length", .int limits.maxFilenameLength)]⟩
  let filename := sanitizeFilename rawFilename limits.maxFilenameLength
  let suffix := lowerAscii (String.ofList (PurePath.suffix filename))
  refuseIf (!ALLOWED_LOG_EXTENSIONS.contains suffix)
    ⟨"Unsupported file type. Only .log and .txt files are allowed.",
      [("filename", .str (String.ofList filename))]⟩
  refuseIf (isRefusedType file.contentType)
    ⟨"Unsupported content type for upload.",
      [("content_type", .str (file.contentType.getD ""))]⟩
  refuseIf file.data.isEmpty ⟨"Uploaded file is empty.", []⟩
  refuseIf (limits.maxBytes < file.data.length)
    ⟨"File exceeds maximum size of " ++ toString limits.maxUploadSizeMb ++ " MB.",
      [("size_bytes", .int file.data.length), ("max_bytes", .int limits.maxBytes)]⟩
  refuseIf (file.data.contains 0) ⟨"Uploaded file must not contain null bytes.", []⟩
  refuseIf (looksBinary file.data) ⟨"Uploaded file appears to be binary, not text.", []⟩
  let text ← decodeUpload file.data
  refuseIf (limits.maxLogLines < lineCount text)
    ⟨"Uploaded file exceeds maximum line count.",
      [("line_count", .int (lineCount text)), ("max_log_lines", .int limits.maxLogLines)]⟩
  return text

/-! ## The files that pass -/

theorem refuseIf_bind_eq_ok {bad : Bool} {error : UploadError} {text : String}
    {rest : Unit → Except UploadError String} :
    (refuseIf bad error >>= rest) = .ok text ↔ bad = false ∧ rest () = .ok text := by
  cases bad with
  | false => exact (and_iff_right rfl).symm
  | true => exact ⟨fun h => (nomatch h), fun h => (nomatch h.1)⟩

theorem decodeUpload_bind_eq_ok {data : List UInt8} {text : String}
    {rest : String → Except UploadError String} :
    (decodeUpload data >>= rest) = .ok text ↔
      ∃ decoded, Utf8.decode? data = some decoded ∧ rest decoded = .ok text := by
  unfold decodeUpload
  cases h : Utf8.decode? data with
  | none => exact ⟨fun h => (nomatch h), fun ⟨_, h, _⟩ => (nomatch h)⟩
  | some decoded => simp [Bind.bind, Except.bind]

/-- **The files that pass** are those that every check lets through. -/
theorem readAndValidateUpload_eq_ok {limits : UploadLimits} {file : UploadFile} {text : String} :
    readAndValidateUpload limits file = .ok text ↔
      (file.filename.getD "").toList.length ≤ limits.maxFilenameLength ∧
      lowerAscii (String.ofList (PurePath.suffix
        (sanitizeFilename (file.filename.getD "").toList limits.maxFilenameLength))) ∈
          ALLOWED_LOG_EXTENSIONS ∧
      isRefusedType file.contentType = false ∧ file.data ≠ [] ∧
      file.data.length ≤ limits.maxBytes ∧ 0 ∉ file.data ∧ looksBinary file.data = false ∧
      Utf8.decode? file.data = some text ∧ lineCount text ≤ limits.maxLogLines := by
  unfold readAndValidateUpload
  simp only [refuseIf_bind_eq_ok, decodeUpload_bind_eq_ok, decide_eq_false_iff_not, Nat.not_lt,
    Bool.not_eq_false', List.isEmpty_eq_false_iff, List.contains_eq_mem]
  constructor
  · rintro ⟨h₁, h₂, h₃, h₄, h₅, h₆, h₇, decoded, h₈, h₉, h⟩
    cases h
    exact ⟨h₁, by simpa using h₂, h₃, h₄, h₅, h₆, h₇, h₈, h₉⟩
  · rintro ⟨h₁, h₂, h₃, h₄, h₅, h₆, h₇, h₈, h₉⟩
    exact ⟨h₁, by simpa using h₂, h₃, h₄, h₅, h₆, h₇, text, h₈, h₉, rfl⟩

end DevOps

namespace DevOps

open Text

/-- A control character. -/
def isControl (c : Char) : Bool := c.toNat < 0x20 || (0x7F ≤ c.toNat && c.toNat ≤ 0x9F)

/-- A `.log` or `.txt` file of an allowed type, whose bytes are a text within the limits. Its name
is `stem` with an extension. -/
structure IsTextLog (limits : UploadLimits) (file : UploadFile) (stem : List Char) (text : String) :
    Prop where
  extension : ∃ ext, PurePath.name (file.filename.getD "").toList = stem ++ ext ∧
    lowerAscii (String.ofList ext) ∈ ALLOWED_LOG_EXTENSIONS
  contentType : isRefusedType file.contentType = false
  nonempty : file.data ≠ []
  decoded : Utf8.decode? file.data = some text
  control : ∀ c ∈ text.toList, isControl c = true → c ∈ ['\t', '\n', '\r']
  filename : (file.filename.getD "").toList.length ≤ limits.maxFilenameLength
  size : file.data.length ≤ limits.maxBytes
  lines : lineCount text ≤ limits.maxLogLines

/-- At most 30 of 100 bytes at the beginning are outside ASCII. -/
def MostlyAscii (data : List UInt8) : Prop :=
  10 * (data.take 8192).countP (128 ≤ ·.toNat) ≤ 3 * (data.take 8192).length

/-! ## Extensions -/

/-- A letter of an extension, in either case. -/
theorem isFilenameChar_of_toLower {c : Char} (h : c.toLower ∈ ['l', 'o', 'g', 't', 'x']) :
    isFilenameChar c = true := by
  have hplain : ∀ d ∈ ['l', 'o', 'g', 't', 'x', 'L', 'O', 'G', 'T', 'X'], isFilenameChar d = true := by
    decide
  rcases toNat_toLower c with hc | ⟨-, -, hc⟩
  · rw [hc] at h
    exact hplain c (List.mem_append_left ['L', 'O', 'G', 'T', 'X'] h)
  · refine hplain c (List.mem_append_right ['l', 'o', 'g', 't', 'x'] ?_)
    have hupper : ∀ d ∈ ['l', 'o', 'g', 't', 'x'],
        Char.ofNat (d.toNat - 32) ∈ ['L', 'O', 'G', 'T', 'X'] := by decide
    have := hupper _ h
    rw [hc, Nat.add_sub_cancel, Char.ofNat_toNat] at this
    exact this

/-- An extension is a dot and characters that a name keeps. -/
theorem exists_of_extension {ext : List Char}
    (h : lowerAscii (String.ofList ext) ∈ ALLOWED_LOG_EXTENSIONS) :
    ∃ letters, ext = '.' :: letters ∧ letters ≠ [] ∧ ∀ c ∈ letters, isFilenameChar c = true := by
  have hlower : ext.map Char.toLower = ['.', 'l', 'o', 'g'] ∨
      ext.map Char.toLower = ['.', 't', 'x', 't'] := by
    simp only [ALLOWED_LOG_EXTENSIONS, lowerAscii, String.toList_ofList, List.mem_cons,
      List.not_mem_nil, or_false, ← String.toList_inj] at h
    exact h
  cases ext with
  | nil => simp at hlower
  | cons c letters =>
    simp only [List.map_cons, List.cons.injEq] at hlower
    have hdot : c = '.' := by
      have hc : c.toLower = '.' := hlower.elim (·.1) (·.1)
      rcases toNat_toLower c with h | ⟨h₁, -, h⟩
      · exact h.symm.trans hc
      · rw [hc] at h
        have : '.'.toNat = 46 := rfl
        omega
    refine ⟨letters, by rw [hdot], ?_, fun d hd => isFilenameChar_of_toLower ?_⟩
    · rintro rfl
      simp at hlower
    · have hmem : d.toLower ∈ letters.map Char.toLower := List.mem_map_of_mem hd
      have hlog : ∀ e ∈ ['l', 'o', 'g'], e ∈ ['l', 'o', 'g', 't', 'x'] := by decide
      have htxt : ∀ e ∈ ['t', 'x', 't'], e ∈ ['l', 'o', 'g', 't', 'x'] := by decide
      rcases hlower with ⟨-, hl⟩ | ⟨-, hl⟩
      · exact hlog _ (hl ▸ hmem)
      · exact htxt _ (hl ▸ hmem)

/-! ## Bytes -/

variable {limits : UploadLimits} {file : UploadFile} {stem : List Char} {text : String}

/-- **The disallowed bytes** of a text log are those outside ASCII. -/
theorem isDisallowed_iff (h : IsTextLog limits file stem text) {b : UInt8} (hb : b ∈ file.data) :
    isDisallowed b = true ↔ 128 ≤ b.toNat := by
  have hallowed : b.toNat < 128 → (0x20 ≤ b.toNat ∧ b.toNat < 0x7F) ∨ b.toNat ∈ [9, 10, 13] := by
    intro hlow
    rw [Utf8.decode?_eq_some_iff.mp h.decoded] at hb
    obtain ⟨c, hc, hnat⟩ := Utf8.mem_encode_of_lt hb hlow
    by_cases hcontrol : isControl c = true
    · have hmem : c.toNat ∈ ['\t', '\n', '\r'].map Char.toNat :=
        List.mem_map_of_mem (h.control c hc hcontrol)
      rw [hnat] at hmem
      exact .inr hmem
    · simp only [isControl, Bool.or_eq_true, Bool.and_eq_true, decide_eq_true_eq, not_or,
        not_and] at hcontrol
      omega
  simp only [List.mem_cons, List.not_mem_nil, or_false] at hallowed
  simp only [isDisallowed, Bool.and_eq_true, Bool.not_eq_true', Bool.and_eq_false_iff,
    Bool.or_eq_false_iff, decide_eq_false_iff_not]
  omega

theorem looksBinary_eq_false_iff (h : IsTextLog limits file stem text) :
    looksBinary file.data = false ↔ MostlyAscii file.data := by
  have hcount : (file.data.take 8192).countP isDisallowed =
      (file.data.take 8192).countP (128 ≤ ·.toNat) := by
    refine List.countP_congr fun b hb => ?_
    rw [isDisallowed_iff h (List.mem_of_mem_take hb), decide_eq_true_eq]
  change decide (3 * (file.data.take 8192).length < _) = false ↔ _
  rw [hcount, decide_eq_false_iff_not, Nat.not_lt]
  exact Iff.rfl

theorem zero_notMem (h : IsTextLog limits file stem text) : 0 ∉ file.data := by
  intro hzero
  have hdisallowed := isDisallowed_iff h hzero
  revert hdisallowed
  decide

/-- **A text log is accepted** if and only if at most 30 of 100 bytes at its beginning are outside
ASCII, and its name has a character in front of the extension that is kept. -/
theorem readAndValidateUpload_iff (h : IsTextLog limits file stem text) :
    readAndValidateUpload limits file = .ok text ↔
      MostlyAscii file.data ∧ ∃ c ∈ stem, isFilenameChar c = true := by
  obtain ⟨ext, hname, hext⟩ := h.extension
  obtain ⟨letters, rfl, hne, hletters⟩ := exists_of_extension hext
  have hsuffix := suffix_sanitizeFilename hletters hne hname h.filename
  rw [readAndValidateUpload_eq_ok, looksBinary_eq_false_iff h]
  constructor
  · rintro ⟨-, hmem, -, -, -, -, hascii, -⟩
    refine ⟨hascii, ?_⟩
    by_contra hstem
    rw [hsuffix, if_neg hstem] at hmem
    revert hmem
    decide +kernel
  · rintro ⟨hascii, hstem⟩
    rw [if_pos hstem] at hsuffix
    exact ⟨h.filename, hsuffix ▸ hext, h.contentType, h.nonempty, h.size, zero_notMem h, hascii,
      h.decoded, h.lines⟩

/-! ## A log in ASCII, and one in Cyrillic letters -/

/-- A log with that text. -/
def appLog (text : String) : UploadFile := ⟨some "app.log", some "text/plain", Utf8.encode text⟩

theorem isTextLog_appLog {text : String}
    (control : ∀ c ∈ text.toList, isControl c = true → c ∈ ['\t', '\n', '\r'])
    (nonempty : Utf8.encode text ≠ [])
    (size : (Utf8.encode text).length ≤ UploadLimits.default.maxBytes)
    (lines : lineCount text ≤ UploadLimits.default.maxLogLines) :
    IsTextLog .default (appLog text) "app".toList text where
  extension := by
    refine ⟨".log".toList, ?_, by decide +kernel⟩
    change PurePath.name "app.log".toList = "app".toList ++ ".log".toList
    decide +kernel
  contentType := by
    change isRefusedType (some "text/plain") = false
    decide +kernel
  nonempty := nonempty
  decoded := Utf8.decode?_eq_some_iff.mpr rfl
  control := control
  filename := by
    change "app.log".toList.length ≤ 255
    decide +kernel
  size := size
  lines := lines

theorem readAndValidateUpload_ascii : readAndValidateUpload .default (appLog "INFO started\n") =
    .ok "INFO started\n" := by
  have hlog : IsTextLog .default (appLog "INFO started\n") "app".toList "INFO started\n" :=
    isTextLog_appLog (by decide +kernel) (by decide +kernel) (by decide +kernel) (by decide +kernel)
  have hascii : MostlyAscii (appLog "INFO started\n").data := by
    unfold MostlyAscii
    decide +kernel
  exact (readAndValidateUpload_iff hlog).mpr ⟨hascii, 'a', by simp, by decide⟩

/-- A log in Cyrillic letters is taken for a binary file. -/
theorem cyrillic_log_refused : ¬ ∀ (limits : UploadLimits) (file : UploadFile) (stem : List Char)
    (text : String), IsTextLog limits file stem text →
      readAndValidateUpload limits file = .ok text := by
  intro h
  have hlog : IsTextLog .default (appLog "ошибка") "app".toList "ошибка" :=
    isTextLog_appLog (by decide +kernel) (by decide +kernel) (by decide +kernel) (by decide +kernel)
  have hok := readAndValidateUpload_eq_ok.mp (h _ _ _ _ hlog)
  have hbinary : looksBinary (Utf8.encode "ошибка") = true := by decide +kernel
  exact Bool.false_ne_true (hok.2.2.2.2.2.2.1.symm.trans hbinary)

end DevOps
