import ADTimePix3.Serval.Destination
import ADTimePix3.Serval.Proofs.JsonPathProofs

/-!
# Proofs: destinations

The document is built at fixed positions of its arrays, and read back by the lengths of these: the second
channel of a kind without the first leaves `null` in the first position, which is counted as a channel. When no
channel is on nothing is sent, and what the server had before is read back.

Main result: `roundTrip_iff_readable`.
-/

namespace ADTimePix3.Serval

open ADTimePix3.Stream (Json)
open ADTimePix3.Stream.Json

/-! ## Channels -/

theorem rawFields_ne_nil {p : RawParams} {fields : List (String × Json)} (h : rawFields p = some fields) :
    fields ≠ [] := by
  unfold rawFields at h
  obtain ⟨base, -, h⟩ := Option.bind_eq_some_iff.mp h
  split at h
  · obtain ⟨queueSize, -, h⟩ := Option.bind_eq_some_iff.mp h
    rw [← Option.some.inj h]
    exact List.cons_ne_nil _ _
  · obtain ⟨filePat, -, h⟩ := Option.bind_eq_some_iff.mp h
    split at h
    · simp only [Option.bind_eq_bind, Option.bind_eq_some_iff] at h
      obtain ⟨_, -, _, -, _, -, h⟩ := h
      rw [← Option.some.inj h]
      exact List.cons_ne_nil _ _
    · rw [← Option.some.inj h]
      exact List.cons_ne_nil _ _

theorem imageFields_ne_nil {supportsImageThresholds : Bool} {p : ImageParams} {fields : List (String × Json)}
    (h : imageFields supportsImageThresholds p = some fields) : fields ≠ [] := by
  unfold imageFields at h
  simp only [Option.bind_eq_bind, Option.bind_eq_some_iff] at h
  obtain ⟨_, -, _, -, _, -, _, -, _, -, _, -, _, -, _, -, _, -, _, -, _, -, h⟩ := h
  rw [← Option.some.inj h]
  exact List.cons_ne_nil _ _

theorem histogramFields_ne_nil {p : HistogramParams} {fields : List (String × Json)}
    (h : histogramFields p = some fields) : fields ≠ [] := by
  unfold histogramFields at h
  simp only [Option.bind_eq_bind, Option.bind_eq_some_iff] at h
  obtain ⟨_, -, _, -, _, -, _, -, _, -, _, -, _, -, _, -, _, -, _, -, _, -, _, -, h⟩ := h
  rw [← Option.some.inj h]
  exact List.cons_ne_nil _ _

theorem configureChannel_configured {name : String} {names : List String} {i : ℕ} {enabled : Bool}
    {fields : Option (List (String × Json))} {j j' : Json} (hne : ∀ f, fields = some f → f ≠ [])
    (h : configureChannel ((name :: names).map .key ++ [.index i]) enabled fields j = some j') :
    Configured (name :: names) i enabled j j' := by
  unfold configureChannel at h
  cases enabled with
  | false =>
    obtain rfl := Option.some.inj h
    exact configured_disabled _ _ _
  | true =>
    obtain ⟨f, hf, h⟩ := Option.bind_eq_some_iff.mp h
    exact configured_assignFields (hne f hf) h

theorem configureRawChannel_configured {i : ℕ} {p : RawParams} {j j' : Json}
    (h : configureRawChannel i p j = some j') : Configured ["Raw"] i (isEnabled p.write) j j' :=
  configureChannel_configured (fun _ => rawFields_ne_nil) h

theorem configureImageChannel_configured {supportsImageThresholds isPreview : Bool} {i : ℕ} {p : ImageParams}
    {j j' : Json} (h : configureImageChannel supportsImageThresholds isPreview i p j = some j') :
    Configured (if isPreview then ["Preview", "ImageChannels"] else ["Image"]) i (isEnabled p.write) j j' := by
  cases isPreview with
  | false => exact configureChannel_configured (fun _ => imageFields_ne_nil) h
  | true => exact configureChannel_configured (fun _ => imageFields_ne_nil) h

theorem configureHistogramChannel_configured {p : HistogramParams} {j j' : Json}
    (h : configureHistogramChannel p j = some j') :
    Configured ["Preview", "HistogramChannels"] 0 (isEnabled p.write) j j' := by
  obtain ⟨write, hwrite, h⟩ := Option.bind_eq_some_iff.mp h
  have henabled : isEnabled p.write = (write != 0) := by
    rw [hwrite]
    rfl
  rw [henabled]
  exact configureChannel_configured (fun _ => histogramFields_ne_nil) h

/-- The preview settings are beside the channels. -/
theorem previewSettings_filled {p : DestinationParams} {j j' : Json} (h : previewSettings p j = some j') :
    (∀ names, diverges [.key "Preview", .key "Period"] names = true →
      diverges [.key "Preview", .key "SamplingMode"] names = true → j'.filled names = j.filled names) ∧
    ∀ name ≠ "Preview", j'.contains name = j.contains name := by
  unfold previewSettings at h
  split at h
  · obtain ⟨period, -, h⟩ := Option.bind_eq_some_iff.mp h
    obtain ⟨j₁, hperiod, h⟩ := Option.bind_eq_some_iff.mp h
    simp only [Option.bind_eq_bind, Option.bind_eq_some_iff] at h
    obtain ⟨_, -, _, -, hmode⟩ := h
    constructor
    · intro names h1 h2
      rw [filled_assign_of_diverges h2 hmode, filled_assign_of_diverges h1 hperiod]
    · intro name hne
      have hbeq : ("Preview" == name) = false := beq_false_of_ne hne.symm
      rw [contains_assign hmode, contains_assign hperiod, hbeq, Bool.or_false, Bool.or_false]
  · obtain rfl := Option.some.inj h
    exact ⟨fun _ _ _ => rfl, fun _ _ => rfl⟩

/-! ## The document -/

/-- Which entries of an array are there when its two channels are on or off. -/
def pairFilled : Bool → Bool → List Bool
  | false, false => []
  | true, false => [true]
  | first, true => [first, true]

theorem filled_pair {names : List String} {e0 e1 : Bool} {j₀ j₁ j₂ : Json} (h0 : Configured names 0 e0 j₀ j₁)
    (h1 : Configured names 1 e1 j₁ j₂) (hnone : j₀.filled names = []) : j₂.filled names = pairFilled e0 e1 := by
  rw [h1.filled, h0.filled, hnone]
  cases e0 <;> cases e1 <;> rfl

/-- A document with the arrays of the enabled channels. -/
structure Built (p : DestinationParams) (j : Json) : Prop where
  raw : j.filled ["Raw"] = pairFilled (isEnabled p.raw.write) (isEnabled p.raw1.write)
  img : j.filled ["Image"] = pairFilled (isEnabled p.img.write) (isEnabled p.img1.write)
  prvImg : j.filled ["Preview", "ImageChannels"] =
    pairFilled (isEnabled p.prvImg.write) (isEnabled p.prvImg1.write)
  prvHst : j.filled ["Preview", "HistogramChannels"] = pairFilled (isEnabled p.prvHst.write) false
  body : j.contains "Destination" = false

/-- `anyChannelConfigured` is what it says. -/
theorem buildDestination_built {p : DestinationParams} {j : Json} {any : Bool}
    (h : buildDestination p = some (j, any)) : Built p j ∧ any = p.writes.any isEnabled := by
  unfold buildDestination at h
  simp only [Option.bind_eq_bind, Option.bind_eq_some_iff] at h
  obtain ⟨j₁, hraw, j₂, hraw1, j₃, himg, j₄, himg1, j₅, hprvImg, j₆, hprvImg1, j₇, hprvHst, j₈, hsettings, h⟩ := h
  obtain ⟨rfl, rfl⟩ := Prod.mk.inj (Option.some.inj h)
  have c1 := configureRawChannel_configured hraw
  have c2 := configureRawChannel_configured hraw1
  have c3 := configureImageChannel_configured himg
  have c4 := configureImageChannel_configured himg1
  have c5 := configureImageChannel_configured hprvImg
  have c6 := configureImageChannel_configured hprvImg1
  have c7 := configureHistogramChannel_configured hprvHst
  obtain ⟨hfilled, hcontains⟩ := previewSettings_filled hsettings
  simp only [Bool.false_eq_true, if_false, if_true] at c3 c4 c5 c6
  have hnull : ∀ name, Json.null.contains name = false := fun _ => rfl
  refine ⟨⟨?_, ?_, ?_, ?_, ?_⟩, ?_⟩
  · rw [hfilled _ rfl rfl, c7.others _ rfl, c6.others _ rfl, c5.others _ rfl, c4.others _ rfl, c3.others _ rfl]
    exact filled_pair c1 c2 rfl
  · rw [hfilled _ rfl rfl, c7.others _ rfl, c6.others _ rfl, c5.others _ rfl]
    refine filled_pair c3 c4 ?_
    rw [c2.others _ rfl, c1.others _ rfl]
    rfl
  · rw [hfilled _ rfl rfl, c7.others _ rfl]
    refine filled_pair c5 c6 ?_
    rw [c4.others _ rfl, c3.others _ rfl, c2.others _ rfl, c1.others _ rfl]
    rfl
  · rw [hfilled _ rfl rfl, c7.filled, c6.others _ rfl, c5.others _ rfl, c4.others _ rfl, c3.others _ rfl,
      c2.others _ rfl, c1.others _ rfl]
    cases isEnabled p.prvHst.write <;> rfl
  · rw [hcontains _ (by decide), c7.contains, c6.contains, c5.contains, c4.contains, c3.contains, c2.contains,
      c1.contains, hnull]
    simp
  · simp only [c7.contains, c6.contains, c5.contains, c4.contains, c3.contains, c2.contains, c1.contains, hnull]
    simp [DestinationParams.writes, Bool.or_assoc, Bool.or_comm, Bool.or_left_comm]

/-! ## Flags -/

theorem isEnabled_iff {w : Option ℤ} : isEnabled w = false ↔ w = none ∨ w = some 0 := by
  cases w <;> simp [isEnabled]

/-- A flag of a single channel is read back when it is 0 or 1. -/
theorem readSingle_agree (w : Option ℤ) :
    w = some (readPair (pairFilled (isEnabled w) false).length).1 ↔ w = some 0 ∨ w = some 1 := by
  cases hw : isEnabled w with
  | false =>
    show w = some 0 ↔ _
    rcases isEnabled_iff.mp hw with rfl | rfl <;> simp
  | true =>
    show w = some 1 ↔ _
    have hne : w ≠ some 0 := by
      rintro rfl
      cases hw
    simp [hne]

/-- The flags of two channels of a kind are read back when they are 0 or 1, and the second is not on alone. -/
theorem readPair_agree (w₀ w₁ : Option ℤ) :
    (w₀ = some (readPair (pairFilled (isEnabled w₀) (isEnabled w₁)).length).1 ∧
        w₁ = some (readPair (pairFilled (isEnabled w₀) (isEnabled w₁)).length).2) ↔
      (w₀ = some 0 ∨ w₀ = some 1) ∧ (w₁ = some 0 ∨ w₁ = some 1) ∧ (w₁ = some 1 → w₀ = some 1) := by
  cases h₁ : isEnabled w₁ with
  | false =>
    have hsecond : (readPair (pairFilled (isEnabled w₀) false).length).2 = 0 := by
      cases isEnabled w₀ <;> rfl
    rw [hsecond, readSingle_agree]
    rcases isEnabled_iff.mp h₁ with rfl | rfl <;> simp
  | true =>
    have hfirst : readPair (pairFilled (isEnabled w₀) true).length = (1, 1) := by
      cases isEnabled w₀ <;> rfl
    have hne : w₁ ≠ some 0 := by
      rintro rfl
      cases h₁
    rw [hfirst]
    simp only [hne, false_or]
    constructor
    · rintro ⟨hw₀, hw₁⟩
      exact ⟨Or.inr hw₀, hw₁, fun _ => hw₀⟩
    · rintro ⟨-, hw₁, himp⟩
      exact ⟨himp hw₁, hw₁⟩

theorem countP_pairFilled (w₀ w₁ : Option ℤ) :
    (pairFilled (isEnabled w₀) (isEnabled w₁)).countP id = [w₀, w₁].countP isEnabled := by
  rw [List.countP_cons, List.countP_singleton]
  cases isEnabled w₀ <;> cases isEnabled w₁ <;> rfl

theorem destinationBody_eq {j : Json} (h : j.contains "Destination" = false) : destinationBody j = j := by
  unfold Json.contains at h
  unfold destinationBody
  cases hmember : j.member "Destination" with
  | none => rfl
  | some x =>
    rw [hmember] at h
    cases h

theorem channelCount_eq (names : List String) (j : Json) : channelCount names j = (j.filled names).length :=
  (List.length_map _).symm

/-! ## The result -/

theorem DestinationParams.forall_writes (p : DestinationParams) {P : Option ℤ → Prop} :
    (∀ w ∈ p.writes, P w) ↔ P p.raw.write ∧ P p.raw1.write ∧ P p.img.write ∧ P p.img1.write ∧
      P p.prvImg.write ∧ P p.prvImg1.write ∧ P p.prvHst.write := by
  simp [DestinationParams.writes]

/-- A document that was sent is read back when the second channels are not on alone. -/
theorem Built.flagsAgree_iff {p : DestinationParams} {j : Json} (h : Built p j) (flags : ReadFlags) :
    p.FlagsAgree (getServer (some j) flags) ↔
      (∀ w ∈ p.writes, w = some 0 ∨ w = some 1) ∧ (p.raw1.write = some 1 → p.raw.write = some 1) ∧
        (p.img1.write = some 1 → p.img.write = some 1) ∧
        (p.prvImg1.write = some 1 → p.prvImg.write = some 1) := by
  have hraw := readPair_agree p.raw.write p.raw1.write
  have himg := readPair_agree p.img.write p.img1.write
  have hprvImg := readPair_agree p.prvImg.write p.prvImg1.write
  have hprvHst := readSingle_agree p.prvHst.write
  rw [← h.raw, ← channelCount_eq] at hraw
  rw [← h.img, ← channelCount_eq] at himg
  rw [← h.prvImg, ← channelCount_eq] at hprvImg
  rw [← h.prvHst, ← channelCount_eq] at hprvHst
  have hread : getServer (some j) flags = readFlags j := congrArg readFlags (destinationBody_eq h.body)
  rw [hread]
  constructor
  · intro hflags
    obtain ⟨hr, hr1, hrimp⟩ := hraw.mp ⟨hflags.raw, hflags.raw1⟩
    obtain ⟨hi, hi1, hiimp⟩ := himg.mp ⟨hflags.img, hflags.img1⟩
    obtain ⟨hv, hv1, hvimp⟩ := hprvImg.mp ⟨hflags.prvImg, hflags.prvImg1⟩
    have hh := hprvHst.mp hflags.prvHst
    exact ⟨p.forall_writes.mpr ⟨hr, hr1, hi, hi1, hv, hv1, hh⟩, hrimp, hiimp, hvimp⟩
  · rintro ⟨hwrites, hrimp, hiimp, hvimp⟩
    obtain ⟨hr, hr1, hi, hi1, hv, hv1, hh⟩ := p.forall_writes.mp hwrites
    obtain ⟨hraw, hraw1⟩ := hraw.mpr ⟨hr, hr1, hrimp⟩
    obtain ⟨himg, himg1⟩ := himg.mpr ⟨hi, hi1, hiimp⟩
    obtain ⟨hprvImg, hprvImg1⟩ := hprvImg.mpr ⟨hv, hv1, hvimp⟩
    exact ⟨hraw, hraw1, himg, himg1, hprvImg, hprvImg1, hprvHst.mpr hh⟩

theorem Built.entriesAgree {p : DestinationParams} {j : Json} (h : Built p j) : p.EntriesAgree j where
  raw := by rw [DestinationParams.filledCount, h.raw, countP_pairFilled]
  img := by rw [DestinationParams.filledCount, h.img, countP_pairFilled]
  prvImg := by rw [DestinationParams.filledCount, h.prvImg, countP_pairFilled]
  prvHst := by
    rw [DestinationParams.filledCount, h.prvHst, List.countP_singleton]
    cases isEnabled p.prvHst.write <;> rfl

/-- All flags are read back as 0 exactly when the server has no channels. -/
theorem nothingStored_iff (document : Option Json) (flags : ReadFlags) :
    getServer document flags = ⟨0, 0, 0, 0, 0, 0, 0⟩ ↔ NothingStored document flags := by
  have hzero : ∀ n, (readPair n).1 = 0 ↔ n = 0 := by
    intro n
    rcases n with _ | _ | n <;> simp [readPair]
  cases document with
  | none => rfl
  | some parsed =>
    show readFlags (destinationBody parsed) = _ ↔ NothingStored (some parsed) flags
    constructor
    · intro h
      refine ⟨(hzero _).mp ?_, (hzero _).mp ?_, (hzero _).mp ?_, (hzero _).mp ?_⟩
      · exact congrArg ReadFlags.raw h
      · exact congrArg ReadFlags.img h
      · exact congrArg ReadFlags.prvImg h
      · exact congrArg ReadFlags.prvHst h
    · rintro ⟨hraw, himg, hprvImg, hprvHst⟩
      unfold readFlags
      rw [hraw, himg, hprvImg, hprvHst]
      rfl

/-- With all channels off, the flags agree when they are 0 and read back as 0. -/
theorem flagsAgree_of_disabled {p : DestinationParams} (hoff : ∀ w ∈ p.writes, isEnabled w = false)
    (read : ReadFlags) :
    p.FlagsAgree read ↔ (∀ w ∈ p.writes, w = some 0) ∧ read = ⟨0, 0, 0, 0, 0, 0, 0⟩ := by
  obtain ⟨hr, hr1, hi, hi1, hv, hv1, hh⟩ := p.forall_writes.mp hoff
  have hval : ∀ {w : Option ℤ} {z : ℤ}, isEnabled w = false → w = some z → z = 0 := by
    rintro w z hw rfl
    rcases isEnabled_iff.mp hw with h | h
    · cases h
    · exact Option.some.inj h
  constructor
  · intro h
    have hread : read = ⟨0, 0, 0, 0, 0, 0, 0⟩ := by
      obtain ⟨r, r1, i, i1, v, v1, hst⟩ := read
      obtain ⟨h1, h2, h3, h4, h5, h6, h7⟩ := h
      rw [ReadFlags.mk.injEq]
      exact ⟨hval hr h1, hval hr1 h2, hval hi h3, hval hi1 h4, hval hv h5, hval hv1 h6, hval hh h7⟩
    subst hread
    exact ⟨p.forall_writes.mpr ⟨h.raw, h.raw1, h.img, h.img1, h.prvImg, h.prvImg1, h.prvHst⟩, rfl⟩
  · rintro ⟨hwrites, rfl⟩
    obtain ⟨h1, h2, h3, h4, h5, h6, h7⟩ := p.forall_writes.mp hwrites
    exact ⟨h1, h2, h3, h4, h5, h6, h7⟩

/-- After a successful `fileWriter`, `getServer` reads the flags back and the document has the entries of the
enabled channels, exactly when the parameters and what the server has before are such that they can be. -/
theorem roundTrip_iff_readable (p : DestinationParams) (status_code : ℤ) (document : Option Json)
    (flags : ReadFlags) (sent : Option Json) (hsent : fileWriter p status_code = some sent) :
    p.RoundTrip document flags sent ↔ p.Readable document flags := by
  obtain ⟨⟨j, any⟩, hbuild, hsent⟩ := Option.bind_eq_some_iff.mp hsent
  obtain ⟨hbuilt, rfl⟩ := buildDestination_built hbuild
  by_cases hany : p.writes.any isEnabled = true
  · -- a document is sent
    rw [hany] at hsent
    have hdoc : sent = some j := by
      by_cases hstatus : status_code ≠ 200
      · simp [hstatus] at hsent
      · simp [hstatus] at hsent
        exact hsent.symm
    subst hdoc
    obtain ⟨w, hw, henabled⟩ := List.any_eq_true.mp hany
    have hon : ¬ ∀ w ∈ p.writes, w = some 0 := by
      intro hall
      rw [hall w hw] at henabled
      cases henabled
    have hflags := hbuilt.flagsAgree_iff flags
    constructor
    · intro h
      obtain ⟨hwrites, hraw, himg, hprvImg⟩ := hflags.mp h.flags
      exact ⟨hwrites, hraw, himg, hprvImg, fun hall => absurd hall hon⟩
    · intro h
      refine ⟨hflags.mpr ⟨h.zero_or_one, h.raw, h.img, h.prvImg⟩, ?_⟩
      intro j' hj'
      obtain rfl := Option.some.inj hj'
      exact hbuilt.entriesAgree
  · -- nothing is sent
    rw [Bool.not_eq_true] at hany
    rw [hany] at hsent
    obtain rfl := Option.some.inj hsent
    have hoff : ∀ w ∈ p.writes, isEnabled w = false := by
      intro w hw
      rw [List.any_eq_false] at hany
      exact Bool.eq_false_iff.mpr (hany w hw)
    have hflags := flagsAgree_of_disabled hoff (getServer document flags)
    rw [nothingStored_iff] at hflags
    constructor
    · intro h
      obtain ⟨hall, hnothing⟩ := hflags.mp h.flags
      obtain ⟨-, hraw1, -, himg1, -, hprvImg1, -⟩ := p.forall_writes.mp hall
      have hoff1 : ∀ {w w' : Option ℤ}, w = some 0 → w = some 1 → w' = some 1 := by
        rintro w w' rfl hone
        cases hone
      exact ⟨fun w hw => Or.inl (hall w hw), hoff1 hraw1, hoff1 himg1, hoff1 hprvImg1, fun _ => hnothing⟩
    · intro h
      have hall : ∀ w ∈ p.writes, w = some 0 := by
        intro w hw
        rcases h.zero_or_one w hw with hzero | hone
        · exact hzero
        · have := hoff w hw
          rw [hone] at this
          cases this
      exact ⟨hflags.mpr ⟨hall, h.nothing hall⟩, fun j hj => by cases hj⟩

/-! ## Runs on given parameters -/

/-- Channels that are all off, with what they need to be turned on. -/
def sampleRaw (write : ℤ) : RawParams := ⟨some write, some 0, some "file:/raw", some "raw%Hms_", some 0, some 1024⟩

def sampleImage : ImageParams := ⟨some 0, none, none, none, none, none, none, none, none, none⟩

def sampleParams (raw raw1 : ℤ) : DestinationParams :=
  ⟨sampleRaw raw, sampleRaw raw1, sampleImage, sampleImage, sampleImage, sampleImage,
    ⟨some 0, none, none, none, none, none, none, none, none, none, none, none⟩, none, none, false⟩

/-- The first raw channel alone is read back, whatever the server had. -/
theorem roundTrip_first_raw :
    (fileWriter (sampleParams 1 0) 200).isSome = true ∧
      ∀ sent, fileWriter (sampleParams 1 0) 200 = some sent →
        (sampleParams 1 0).RoundTrip none ⟨0, 0, 0, 0, 0, 0, 0⟩ sent :=
  ⟨by decide +kernel, fun sent hsent =>
    (roundTrip_iff_readable (sampleParams 1 0) 200 none ⟨0, 0, 0, 0, 0, 0, 0⟩ sent hsent).mpr
      ⟨by decide, by decide, by decide, by decide, fun _ => rfl⟩⟩

/-- The second raw channel alone is read back as both. -/
theorem second_raw_read_as_both :
    ∃ sent, fileWriter (sampleParams 0 1) 200 = some sent ∧
      getServer (sent.or none) ⟨0, 0, 0, 0, 0, 0, 0⟩ = ⟨1, 1, 0, 0, 0, 0, 0⟩ ∧
      ¬ (sampleParams 0 1).RoundTrip none ⟨0, 0, 0, 0, 0, 0, 0⟩ sent := by
  have hsome : (fileWriter (sampleParams 0 1) 200).isSome = true := by decide +kernel
  obtain ⟨sent, hsent⟩ := Option.isSome_iff_exists.mp hsome
  have hread : (fileWriter (sampleParams 0 1) 200).map
      (fun sent => getServer (sent.or none) ⟨0, 0, 0, 0, 0, 0, 0⟩) = some ⟨1, 1, 0, 0, 0, 0, 0⟩ := by
    decide +kernel
  rw [hsent] at hread
  have hflags : getServer (sent.or none) ⟨0, 0, 0, 0, 0, 0, 0⟩ = ⟨1, 1, 0, 0, 0, 0, 0⟩ := Option.some.inj hread
  refine ⟨sent, hsent, hflags, ?_⟩
  intro h
  have hagree := h.flags
  rw [hflags] at hagree
  cases hagree.raw

end ADTimePix3.Serval
