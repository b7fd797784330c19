import ADTimePix3.Acquire.Proofs.PortsProofs
import ADTimePix3.Acquire.TcpGrammar

/-!
# The grammar of TCP paths: proofs

`parseTcpPath_iff` says of every string what the parser makes of it. From there the grammar is left wherever one
of the pieces that it does not have is there.
-/

namespace ADTimePix3.Acquire

variable {filePath s pre post digits rest blanks : List Char} {e : Endpoint} {p : Parts} {c : Char} {n : ℕ}
  {user : Option (List Char)} {z : ℤ}

/-! ## Cutting a string -/

theorem splitFirst_eq_some_iff : splitFirst c s = some (pre, post) ↔ c ∉ pre ∧ s = pre ++ c :: post := by
  constructor
  · intro h
    refine ⟨splitFirst_not_mem h, ?_⟩
    unfold splitFirst at h
    split_ifs at h with hc
    obtain ⟨rfl, rfl⟩ := Prod.mk.inj (Option.some.inj h)
    have hdrop : s.dropWhile (· ≠ c) = c :: (s.dropWhile (· ≠ c)).tail := by
      have hhead := head?_dropWhile (f := (· ≠ c)) s
      cases hs : s.dropWhile (· ≠ c) with
      | nil =>
        rw [List.dropWhile_eq_nil_iff] at hs
        simpa using hs c hc
      | cons x t =>
        rw [hs] at hhead
        have hx : x = c := by simpa using hhead x rfl
        rw [hx, List.tail_cons]
    rw [← hdrop, List.takeWhile_append_dropWhile]
  · rintro ⟨hpre, rfl⟩
    exact splitFirst_append hpre post

theorem splitFirst_eq_none_iff : splitFirst c s = none ↔ c ∉ s := by
  unfold splitFirst
  by_cases hc : c ∈ s <;> simp [hc]

/-- What the parser looks at behind `tcp://`: everything behind the first `@`, or everything. -/
theorem skipListen_eq_iff :
    skipListen s = rest ↔ (∃ u, '@' ∉ u ∧ s = u ++ '@' :: rest) ∨ ('@' ∉ s ∧ s = rest) := by
  unfold skipListen
  cases hs : splitFirst '@' s with
  | none =>
    have hat : '@' ∉ s := splitFirst_eq_none_iff.mp hs
    constructor
    · rintro rfl
      exact Or.inr ⟨hat, rfl⟩
    · rintro (⟨u, -, rfl⟩ | ⟨-, h⟩)
      · exact absurd (List.mem_append_right u List.mem_cons_self) hat
      · exact h
  | some cut =>
    obtain ⟨u, post⟩ := cut
    obtain ⟨hu, hcut⟩ := splitFirst_eq_some_iff.mp hs
    constructor
    · rintro rfl
      exact Or.inl ⟨u, hu, hcut⟩
    · rintro (⟨u', hu', hcut'⟩ | ⟨hat, -⟩)
      · rw [splitFirst_eq_some_iff.mpr ⟨hu', hcut'⟩] at hs
        exact (Prod.mk.inj (Option.some.inj hs)).2.symm
      · rw [hcut] at hat
        exact absurd (List.mem_append_right u List.mem_cons_self) hat

/-! ## Paths -/

theorem parseHostPort_eq_some_iff :
    parseHostPort s = some e ↔
      ∃ portText, ':' ∉ e.host ∧ s = e.host ++ ':' :: portText ∧ stoi portText = some (e.port : ℤ) ∧
        1 ≤ e.port ∧ e.port ≤ 65535 := by
  constructor
  · intro h
    obtain ⟨hcolon, hpos, hle⟩ := parseHostPort_spec h
    unfold parseHostPort at h
    cases hs : splitFirst ':' s with
    | none => simp [hs] at h
    | some cut =>
      obtain ⟨host, portText⟩ := cut
      cases hz : stoi portText with
      | none => simp [hs, hz] at h
      | some z =>
        simp only [hs, hz] at h
        split_ifs at h with hrange
        obtain rfl := Option.some.inj h
        refine ⟨portText, hcolon, (splitFirst_eq_some_iff.mp hs).2, ?_, hpos, hle⟩
        rw [hz]
        show some z = some ((z.toNat : ℕ) : ℤ)
        rw [Int.toNat_of_nonneg (by omega)]
  · rintro ⟨portText, hcolon, rfl, hstoi, hpos, hle⟩
    unfold parseHostPort
    simp only [splitFirst_append hcolon, hstoi]
    rw [if_neg (by omega)]
    rfl

theorem parseTcpPath_append (s : List Char) :
    parseTcpPath ("tcp://".toList ++ s) = parseHostPort (skipListen s) := by
  unfold parseTcpPath
  rw [if_pos (List.isPrefixOf_iff_prefix.mpr ⟨s, rfl⟩)]
  rfl

theorem Parts.taken_of_decimal (p : Parts) (huser : ∀ u ∈ p.user, '@' ∉ u)
    (hno : p.user = none → '@' ∉ p.host ++ ':' :: p.portText) (hcolon : ':' ∉ p.host)
    (hblank : ∀ c ∈ p.blanks, isSpace c = true) (hdec : Decimal p.digits n)
    (hrest : ∀ c ∈ p.rest.head?, c.isDigit = false) (hpos : 1 ≤ n) (hle : n ≤ 65535) :
    p.Taken ∧ p.endpoint = ⟨p.host, n⟩ := by
  obtain ⟨hne, hdigit, rfl⟩ := hdec
  exact ⟨⟨huser, hno, hcolon, hblank, hne, hdigit, hrest, hpos, hle⟩, rfl⟩

/-- The parser leaves out the user part. -/
theorem Parts.Taken.skipListen_eq (hp : p.Taken) :
    skipListen (userPart p.user ++ (p.host ++ ':' :: p.portText)) = p.host ++ ':' :: p.portText := by
  rw [skipListen_eq_iff]
  cases huser : p.user with
  | none => exact Or.inr ⟨hp.no_user huser, rfl⟩
  | some u => exact Or.inl ⟨u, hp.user_at u huser, by simp [userPart]⟩

/-- What the parser accepts, over all strings: the pieces it takes, with the host and the number among them. -/
theorem parseTcpPath_iff :
    parseTcpPath filePath = some e ↔ ∃ p : Parts, p.Taken ∧ p.text = filePath ∧ p.endpoint = e := by
  constructor
  · intro h
    by_cases htcp : "tcp://".toList.isPrefixOf filePath = true
    · obtain ⟨s, rfl⟩ := List.isPrefixOf_iff_prefix.mp htcp
      rw [parseTcpPath_append, parseHostPort_eq_some_iff] at h
      obtain ⟨portText, hcolon, hskip, hstoi, hpos, hle⟩ := h
      obtain ⟨-, blanks, plus, digits, rest, rfl, hblank, hdec, hrest⟩ := (stoi_eq_some_iff_of_pos hpos).mp hstoi
      rcases skipListen_eq_iff.mp hskip with ⟨u, hu, rfl⟩ | ⟨hat, rfl⟩
      · have huser : ∀ v ∈ some u, '@' ∉ v := by
          intro v hv
          rw [← Option.some.inj hv]
          exact hu
        obtain ⟨htaken, hend⟩ := Parts.taken_of_decimal ⟨some u, e.host, blanks, plus, digits, rest⟩ huser
          (fun hnone => nomatch hnone) hcolon hblank hdec hrest hpos hle
        refine ⟨_, htaken, ?_, hend⟩
        simp only [Parts.text_eq, Parts.portText, userPart, Option.elim_some, List.append_assoc, List.singleton_append]
      · obtain ⟨htaken, hend⟩ := Parts.taken_of_decimal ⟨none, e.host, blanks, plus, digits, rest⟩
          (fun v hv => nomatch hv) (fun _ => hat) hcolon hblank hdec hrest hpos hle
        exact ⟨_, htaken, rfl, hend⟩
    · unfold parseTcpPath at h
      rw [if_neg htcp] at h
      cases h
  · rintro ⟨p, hp, rfl, rfl⟩
    have hstoi : stoi p.portText = some (p.endpoint.port : ℤ) := by
      refine (stoi_eq_some_iff_of_pos hp.port_pos).mpr ⟨?_, p.blanks, p.plus, p.digits, p.rest, rfl, hp.blanks,
        ⟨hp.ne_nil, hp.isDigit, rfl⟩, hp.rest⟩
      have hle := hp.port_le
      omega
    rw [Parts.text_eq, parseTcpPath_append, hp.skipListen_eq, parseHostPort_eq_some_iff]
    exact ⟨p.portText, hp.host_colon, rfl, hstoi, hp.port_pos, hp.port_le⟩

/-! ## The grammar -/

/-- A path of the grammar, in the pieces that the parser takes. -/
theorem TcpPath.taken (h : TcpPath user e digits filePath) :
    ∃ p : Parts, p.Taken ∧ p.Clean ∧ p.text = filePath ∧ p.endpoint = e := by
  have hat : '@' ∉ e.host ++ ':' :: digits := by
    intro hmem
    rcases List.mem_append.mp hmem with hmem | hmem
    · exact h.host_at hmem
    · rcases List.mem_cons.mp hmem with heq | hmem
      · exact absurd heq (by decide)
      · exact absurd (h.decimal.isDigit '@' hmem) (by decide)
  have hportText : Parts.portText ⟨user, e.host, [], false, digits, []⟩ = digits := by simp [Parts.portText]
  obtain ⟨htaken, hend⟩ := Parts.taken_of_decimal ⟨user, e.host, [], false, digits, []⟩ h.user_at
    (fun _ => by rw [hportText]; exact hat) h.host_colon (by simp) h.decimal (by simp) h.port_pos h.port_le
  refine ⟨_, htaken, ⟨h.host_ne_nil, h.host_at, rfl, rfl, rfl⟩, ?_, hend⟩
  rw [Parts.text_eq, hportText, h.filePath_eq]

theorem Parts.Clean.portText_eq (hclean : p.Clean) : p.portText = p.digits := by
  simp [Parts.portText, hclean.blanks, hclean.plus, hclean.rest]

/-- Clean pieces make a path of the grammar. -/
theorem Parts.Taken.inGrammar (hp : p.Taken) (hclean : p.Clean) : InGrammar p.text p.endpoint := by
  refine ⟨p.user, p.digits, ?_, hp.user_at, hclean.host_ne_nil, hclean.host_at, hp.host_colon,
    ⟨hp.ne_nil, hp.isDigit, rfl⟩, hp.port_pos, hp.port_le⟩
  rw [Parts.text_eq, hclean.portText_eq]
  rfl

/-- Two ways of reading one path agree on what lies behind the user part. -/
theorem Parts.Taken.hostPort_eq {q : Parts} (hp : p.Taken) (hq : q.Taken) (h : p.text = q.text) :
    p.host = q.host ∧ p.portText = q.portText := by
  have hskip : p.host ++ ':' :: p.portText = q.host ++ ':' :: q.portText := by
    rw [← hp.skipListen_eq, ← hq.skipListen_eq, List.append_cancel_left h]
  have hcut : splitFirst ':' (p.host ++ ':' :: p.portText) = some (q.host, q.portText) := by
    rw [hskip, splitFirst_append hq.host_colon]
  rw [splitFirst_append hp.host_colon] at hcut
  exact Prod.mk.inj (Option.some.inj hcut)

/-- A path with clean pieces has no others: what stands behind the colon is digits only. -/
theorem Parts.Taken.clean_of_text_eq {q : Parts} (hp : p.Taken) (hq : q.Taken) (hclean : q.Clean)
    (h : p.text = q.text) : p.Clean := by
  obtain ⟨hhost, hport⟩ := hp.hostPort_eq hq h
  have hdigit : ∀ c ∈ p.portText, c.isDigit = true := by
    rw [hport, hclean.portText_eq]
    exact hq.isDigit
  refine ⟨hhost ▸ hclean.host_ne_nil, hhost ▸ hclean.host_at, ?_, ?_, ?_⟩
  · refine List.eq_nil_iff_forall_not_mem.mpr fun c hc => ?_
    have hspace := hp.blanks c hc
    rw [isSpace_of_isDigit (hdigit c (List.mem_append_left _ hc))] at hspace
    cases hspace
  · cases hplus : p.plus with
    | false => rfl
    | true =>
      have hmem : '+' ∈ p.portText := by simp [Parts.portText, hplus]
      exact absurd (hdigit '+' hmem) (by decide)
  · cases hrest : p.rest with
    | nil => rfl
    | cons c t =>
      have hc : c.isDigit = false := hp.rest c (by rw [hrest]; rfl)
      have hmem : c ∈ p.portText := by simp [Parts.portText, hrest]
      rw [hdigit c hmem] at hc
      cases hc

theorem Recognised.nothingElse (h : Recognised filePath) : NothingElse filePath := by
  intro p hp htext
  have hparse : parseTcpPath filePath = some p.endpoint := parseTcpPath_iff.mpr ⟨p, hp, htext, rfl⟩
  obtain ⟨user, digits, hpath⟩ := (h p.endpoint).mp hparse
  obtain ⟨q, hq, hclean, hqtext, -⟩ := hpath.taken
  exact hp.clean_of_text_eq hq hclean (htext.trans hqtext.symm)

theorem NothingElse.recognised (h : NothingElse filePath) : Recognised filePath := by
  intro e
  constructor
  · intro hparse
    obtain ⟨p, hp, rfl, rfl⟩ := parseTcpPath_iff.mp hparse
    exact hp.inGrammar (h p hp rfl)
  · rintro ⟨user, digits, hpath⟩
    obtain ⟨q, hq, -, hqtext, hend⟩ := hpath.taken
    exact parseTcpPath_iff.mpr ⟨q, hq, hqtext, hend⟩

/-- The parser recognises the grammar on exactly the strings in which it reads nothing else; a path that is made
is read back. -/
theorem recognised_iff (filePath : List Char) :
    (Recognised filePath ↔ NothingElse filePath) ∧
      ∀ (host : List Char) (port : ℕ), host ≠ [] → '@' ∉ host → ':' ∉ host → 1 ≤ port → port ≤ 65535 →
        parseTcpPath (makeListenTcpPath host port) = some ⟨host, port⟩ := by
  constructor
  · exact ⟨Recognised.nothingElse, NothingElse.recognised⟩
  · intro host port _ _ hcolon hpos hle
    exact parseTcpPath_makeListenTcpPath hcolon hpos hle

/-- A sign and trailing text are accepted with the port. -/
theorem not_recognised_trailing :
    ¬ Recognised "tcp://localhost:+8089abc".toList ∧
      parseTcpPath "tcp://localhost:+8089abc".toList = some ⟨"localhost".toList, 8089⟩ := by
  have htaken : Parts.Taken ⟨none, "localhost".toList, [], true, "8089".toList, "abc".toList⟩ := by
    refine ⟨(fun u hu => nomatch hu), fun _ => by decide +kernel, by decide +kernel, List.forall_mem_nil _,
      by decide +kernel, List.all_eq_true.mp (by decide +kernel), fun c hc => ?_, by decide +kernel,
      by decide +kernel⟩
    obtain rfl : c = 'a' := Option.some.inj (hc.symm.trans (by decide +kernel))
    decide
  refine ⟨fun hrec => ?_, parseTcpPath_iff.mpr ⟨_, htaken, by decide +kernel, by decide +kernel⟩⟩
  have hclean := hrec.nothingElse _ htaken (by decide +kernel)
  exact absurd hclean.plus (by decide)

end ADTimePix3.Acquire
