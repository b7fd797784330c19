import ADTimePix3.Lib.Base64
import ADTimePix3.Lib.Buffers
import ADTimePix3.Mask.MaskIO

/-!
# Comparing PixelConfig with the BPC file

`ADTimePix::refreshPixelConfigFromServal` and `decodeBase64` (`serval_http.cpp`). The configuration of each
chip is fetched from Serval and compared with its slice of the BPC file, byte by byte in the order of the file;
what was decoded is staged in `serValLinear`, and from there the waveform `PixelConfigDiff` is filled in the
order of the image.

The export of the masked pixels that follows is in `Mask.MaskedPels`; it does not touch the state modelled
here.
-/

namespace ADTimePix3.Serval

open Mask Loops Buffers

/-! ## Base64 -/

def kChars : List Byte :=
  "ABCDEFGHIJKLMNOPQRSTUVWXYZabcdefghijklmnopqrstuvwxyz0123456789+/".toList.map fun c =>
    BitVec.ofNat 8 c.toNat

/-- `strchr(kChars, c) - kChars`; the terminating NUL is found, too. -/
def strchr (c : Byte) : Option ℕ := if c = 0 then some kChars.length else kChars.findIdx? (· == c)

/-- `std::isspace` in the C locale. -/
def isSpace (c : Byte) : Bool := c == 32 || (9 ≤ c.toNat && c.toNat ≤ 13)

/-- The loop of `decodeBase64` with its variables `val`, `valb` and `out`. The bits that the shift of `val`
drops are never read. -/
def decodeLoop : List Byte → BitVec 32 → ℤ → List Byte → Option (List Byte)
  | [], _, _, out => some out
  | c :: cs, val, valb, out =>
    if isSpace c then decodeLoop cs val valb out
    else if c = 61 then some out  -- '='
    else
      match strchr c with
      | none => none
      | some p =>
        let val := (val <<< 6) + BitVec.ofNat 32 p
        let valb := valb + 6
        if valb ≥ 0 then
          decodeLoop cs val (valb - 8) (out ++ [(val.sshiftRight valb.toNat).setWidth 8])
        else decodeLoop cs val valb out

def decodeBase64 (b64 : List Byte) : Option (List Byte) := decodeLoop b64 0 (-8) []

/-- A base64 text of the bytes `bs`, padded or not, with whitespace anywhere in it. -/
def Encodes (bs b64 : List Byte) : Prop :=
  b64.filter (fun c => !isSpace c) = Base64.encode bs ∨
    b64.filter (fun c => !isSpace c) = Base64.encode bs ++ Base64.padding bs

instance (bs b64 : List Byte) : Decidable (Encodes bs b64) := inferInstanceAs (Decidable (_ ∨ _))

/-- The characters before the first `=`. -/
def beforePadding (b64 : List Byte) : List Byte := b64.takeWhile (· != 61)

/-- The text is accepted if and only if nothing but whitespace and the alphabet precedes the first `=`; then
every character of the alphabet has given six bits, and the output has the bytes that these make. -/
def Strict (b64 : List Byte) : Prop :=
  ((decodeBase64 b64).isSome ↔ ∀ c ∈ beforePadding b64, isSpace c ∨ c ∈ Base64.alphabet) ∧
    ∀ out, decodeBase64 b64 = some out →
      out.length = 3 * (beforePadding b64).countP (fun c => decide (c ∈ Base64.alphabet)) / 4 ∧
        ∀ c ∈ beforePadding b64, isSpace c ∨ ∃ v < 64, strchr c = some v

/-- No NUL precedes the first `=`, or something precedes it that is none of whitespace, alphabet and NUL. -/
def NulRejected (b64 : List Byte) : Prop :=
  0 ∉ beforePadding b64 ∨ ∃ c ∈ beforePadding b64, isSpace c = false ∧ c ∉ Base64.alphabet ∧ c ≠ 0

/-! ## The fetch -/

/-- What `json::parse` makes of the text of a reply. -/
inductive Body where
  | invalid (what : String)
  | notString
  | string (b64 : List Byte)
deriving DecidableEq

/-- The reply to `GET /detector/chips/<chip>/PixelConfig`. -/
structure Reply where
  statusCode : ℤ
  body : Body
deriving DecidableEq

/-- Bytes of one chip in the BPC file. -/
def kPixelConfigBytes : ℕ := 65536

/-- The parameters of one chip. -/
structure ChipParams where
  /-- `ADTimePixPixelConfigLen`. -/
  len : ℤ
  /-- `ADTimePixPixelConfigMatchBPC`: `1` match, `0` mismatch, `2` no file, `3` lengths differ, `-1` no
  PixelConfig. -/
  matchBPC : ℤ
  /-- `ADTimePixPixelConfigMismatchBytes`. -/
  mismatchBytes : ℤ
  /-- `ADTimePixPixelConfigStatus`. -/
  status : String
deriving DecidableEq

/-- The state of the loop over the chips. -/
structure Fetch where
  chips : ℕ → ChipParams
  serValLinear : List Byte
  chipDecoded : List Bool

def Fetch.setChip (s : Fetch) (chip : ℕ) (p : ChipParams) : Fetch :=
  { s with chips := Function.update s.chips chip p }

/-- `serValLinear[offset + i] = decoded[i]`, for at most one chip. -/
def stage (decoded : List Byte) (offset : ℕ) (serValLinear : List Byte) : List Byte :=
  (List.range (min decoded.length kPixelConfigBytes)).foldl
    (fun v i => if offset + i < v.length then v.set (offset + i) (decoded.getD i 0) else v) serValLinear

/-- The turn of the loop for a chip whose reply was decoded. -/
def compareChip (bpcBuf : List Byte) (chip : ℕ) (decoded : List Byte) (s : Fetch) : Fetch :=
  let decLen := decoded.length
  let bpcSize := bpcBuf.length
  if bpcSize = 0 then s.setChip chip ⟨decLen, 2, 0, "OK, no BPC file"⟩
  else
    let offset := chip * kPixelConfigBytes
    if offset ≥ bpcSize then
      s.setChip chip ⟨decLen, 3, 0, s!"BPC too small for chip (need offset {offset}, have {bpcSize})"⟩
    else
      let bytesFromOffset := bpcSize - offset
      let chipFileLen := min kPixelConfigBytes bytesFromOffset
      let ncmp := if decLen < chipFileLen then decLen else chipFileLen
      let mismatch := (List.range ncmp).countP fun i =>
        decoded.getD i 0 ≠ bpcBuf.getD (offset + i) 0
      let s := { s with
        chipDecoded := s.chipDecoded.set chip true
        serValLinear := stage decoded offset s.serValLinear }
      if mismatch > 0 then
        s.setChip chip ⟨decLen, 0, mismatch, s!"Mismatch {mismatch} bytes"⟩
      else if decLen ≠ chipFileLen then
        s.setChip chip ⟨decLen, 3, 0,
          s!"Length mismatch (decoded {decLen}, chip file {chipFileLen})"⟩
      else s.setChip chip ⟨decLen, 1, 0, "OK, matches BPC"⟩

/-- The turn of the loop for one chip. -/
def refreshChip (bpcBuf : List Byte) (chip : ℕ) (reply : Reply) (s : Fetch) : Fetch :=
  if reply.statusCode ≠ 200 then
    let code := reply.statusCode
    s.setChip chip ⟨0, -1, 0, s!"HTTP {code}"⟩
  else
    match reply.body with
    | .invalid what => s.setChip chip ⟨0, -1, 0, "Parse error: " ++ String.ofList (what.toList.take 200)⟩
    | .notString => s.setChip chip ⟨0, -1, 0, "JSON is not a string"⟩
    | .string b64 =>
      match decodeBase64 b64 with
      | none => s.setChip chip ⟨0, -1, 0, "Base64 decode failed"⟩
      | some decoded => compareChip bpcBuf chip decoded s

/-- The loop over the chips. -/
def fetchChips (bpcBuf : List Byte) (nChips : ℕ) (replies : ℕ → Reply) (s : Fetch) : Fetch :=
  (List.range nChips).foldl (fun s chip => refreshChip bpcBuf chip (replies chip) s) s

/-! ## The waveform -/

/-- Elements of `pixelConfigDiff_` and of `serValLinear`. -/
def diffSize : ℕ := 262144

/-- `pixelConfigDiff_`, a vector whose size is set once. -/
abbrev Waveform := { elems : List ℤ // elems.length = diffSize }

/-- The element for pixel `(i, j)`. -/
def diffAt (g : Geometry) (bpcBuf : List Byte) (nChips : ℕ) (s : Fetch) (i j : ℤ) : ℤ :=
  let k := pelIndex g i j
  if k < 0 ∨ k ≥ bpcBuf.length ∨ k ≥ s.serValLinear.length then 0
  else
    let chipOfK := k.tdiv kPixelConfigBytes
    if chipOfK < 0 ∨ chipOfK ≥ nChips ∨ chipOfK ≥ s.chipDecoded.length ∨
        s.chipDecoded.getD chipOfK.toNat false = false then 0
    else
      let a : ℤ := (s.serValLinear.getD k.toNat 0).toNat
      let b : ℤ := (bpcBuf.getD k.toNat 0).toNat
      if a > b then a - b else b - a

/-- The loops that fill the waveform. -/
def fillDiff (g : Geometry) (bpcBuf : List Byte) (nChips : ℕ) (s : Fetch) (diff : List ℤ) : List ℤ :=
  let rc := rowsCols g
  (forRange 0 rc.rows).foldl (fun diff j =>
    (forRange 0 rc.cols).foldl (fun diff i =>
      let imgLin := (j * rc.cols + i).toNat
      if imgLin ≥ diff.length then diff else diff.set imgLin (diffAt g bpcBuf nChips s i j)) diff)
    (diff.map fun _ => 0)

theorem length_foldl {α β : Type} (l : List β) (f : List α → β → List α)
    (hf : ∀ v x, (f v x).length = v.length) (v : List α) : (l.foldl f v).length = v.length := by
  induction l generalizing v with
  | nil => rfl
  | cons x l ih => rw [List.foldl_cons, ih, hf]

theorem length_fillDiff (g : Geometry) (bpcBuf : List Byte) (nChips : ℕ) (s : Fetch) (diff : List ℤ) :
    (fillDiff g bpcBuf nChips s diff).length = diff.length := by
  unfold fillDiff
  rw [length_foldl, List.length_map]
  intro v j
  refine length_foldl _ _ (fun v i => ?_) v
  dsimp only
  split
  · rfl
  · rw [List.length_set]

/-- The parameters of the chips, the waveform, and what was published of it last. -/
structure PixelConfig where
  chips : ℕ → ChipParams
  pixelConfigDiff : Waveform
  published : List ℤ

/-- `ADTimePix::refreshPixelConfigFromServal`. -/
def refreshPixelConfigFromServal (d : Driver) (replies : ℕ → Reply) (s : PixelConfig) :
    Driver × PixelConfig :=
  let (d, bpcBuf) := readBPCfile d
  let nChips := if d.geometry.numChips < 1 then 1 else d.geometry.numChips.toNat
  let f := fetchChips bpcBuf nChips replies
    ⟨s.chips, List.replicate diffSize 0, List.replicate nChips false⟩
  let diff : Waveform :=
    if bpcBuf.length > 0 then
      ⟨fillDiff d.geometry bpcBuf nChips f s.pixelConfigDiff.1, by
        rw [length_fillDiff, s.pixelConfigDiff.2]⟩
    else s.pixelConfigDiff
  (d, ⟨f.chips, diff, diff.1⟩)

/-! ## What the comparison is to say -/

/-- The bytes that a reply carries. -/
def Reply.decoded (r : Reply) : Option (List Byte) :=
  if r.statusCode ≠ 200 then none
  else match r.body with
    | .string b64 => decodeBase64 b64
    | _ => none

/-- The slice of the BPC file that belongs to a chip. -/
def chipSlice (bpcBuf : List Byte) (chip : ℕ) : List Byte :=
  (bpcBuf.drop (chip * kPixelConfigBytes)).take kPixelConfigBytes

/-- How far byte `k` of the file and the byte decoded for it are apart; `0` if there is no such pair. -/
def distance (bpcBuf : List Byte) (replies : ℕ → Reply) (k : ℕ) : ℤ :=
  match (replies (k / kPixelConfigBytes)).decoded.bind (·[k % kPixelConfigBytes]?), bpcBuf[k]? with
  | some a, some b => |(a.toNat : ℤ) - b.toNat|
  | _, _ => 0

/-- The chips and the waveform that a refresh publishes agree with each other, with the replies and with the
file. -/
structure SelfConsistent (d : Driver) (replies : ℕ → Reply) (s : PixelConfig) : Prop where
  match_iff : ∀ chip : ℕ, chip < d.geometry.numChips →
    (((refreshPixelConfigFromServal d replies s).2.chips chip).matchBPC = 1 ↔
      (replies chip).decoded = some (chipSlice (readBPCfile d).2 chip) ∧
        chipSlice (readBPCfile d).2 chip ≠ [])
  count_eq : (((refreshPixelConfigFromServal d replies s).2.published.countP (· ≠ 0) : ℕ) : ℤ) =
    ((List.range d.geometry.numChips.toNat).map fun chip =>
      ((refreshPixelConfigFromServal d replies s).2.chips chip).mismatchBytes).sum
  entry_eq : ∀ i j, InImage d.geometry 256 i j → j * imageWidth d.geometry 256 + i < diffSize →
    fetch (refreshPixelConfigFromServal d replies s).2.published (j * imageWidth d.geometry 256 + i) =
      some (distance (readBPCfile d).2 replies (pelIndex d.geometry i j).toNat)
  /-- What is published is what the same refresh publishes over an empty waveform. -/
  fresh : ∀ blank : PixelConfig, blank.pixelConfigDiff.1 = List.replicate diffSize 0 →
    (refreshPixelConfigFromServal d replies s).2.published =
      (refreshPixelConfigFromServal d replies blank).2.published

/-! ## When it does -/

/-- Where a reply ends before the slice of its chip, the rest of the slice is zero. -/
def NoTail (d : Driver) (replies : ℕ → Reply) : Prop :=
  ∀ chip : ℕ, chip < d.geometry.numChips → ∀ decoded, (replies chip).decoded = some decoded →
    ∀ b ∈ (chipSlice (readBPCfile d).2 chip).drop decoded.length, b = 0

/-- The bytes that differ belong to the first row of the image, and to the columns that the loops reach
in it. -/
def FirstRow (d : Driver) (replies : ℕ → Reply) : Prop :=
  ∀ i j, InImage d.geometry 256 i j →
    distance (readBPCfile d).2 replies (pelIndex d.geometry i j).toNat ≠ 0 →
    j = 0 ∧ i < imageHeight d.geometry 256

/-- Without a BPC file the waveform has to be empty already. With one, no reply may end before a nonzero byte
of its slice, and on a mosaic that is not square only the first row may differ. -/
def Comparable (d : Driver) (replies : ℕ → Reply) (s : PixelConfig) : Prop :=
  if (readBPCfile d).2 = [] then s.pixelConfigDiff.1 = List.replicate diffSize 0
  else NoTail d replies ∧
    (imageWidth d.geometry 256 = imageHeight d.geometry 256 ∨ FirstRow d replies)

end ADTimePix3.Serval
