import ADTimePix3.Acquire.Endpoints
import ADTimePix3.Acquire.Proofs.PortsProofs

/-!
# Proofs: paths and endpoints

What the parameters of a path say in every run (`paths_of_run`), what the workers connect to (`connections_of_run`),
that the endpoints are those of the paths (`current_of_run`), and which workers a start leaves behind
(`workers_at_their_paths`).
-/

namespace ADTimePix3.Acquire.Endpoints

open Workers (Channel)

variable {statDir : List Char → Bool} {text : List Char} {e : Endpoint} {s s' : System} {c : PathChannel}
  {channel : Channel}

/-! ## Texts -/

theorem not_file_of_tcp (h : isTcp text = true) : isFile text = false ∧ isHttp text = false := by
  obtain ⟨rest, rfl⟩ := List.isPrefixOf_iff_prefix.mp h
  exact ⟨rfl, rfl⟩

theorem isTcp_of_parse (h : parseTcpPath text = some e) : isTcp text = true ∧ text.length > 6 := by
  unfold parseTcpPath at h
  split at h
  case isFalse => cases h
  case isTrue htcp =>
    refine ⟨htcp, ?_⟩
    by_contra hlength
    have hdrop : text.drop 6 = [] := List.drop_eq_nil_of_le (by omega)
    rw [hdrop] at h
    cases h

/-- A text that is parsed is accepted. -/
theorem accepted_of_parse (c : PathChannel) (h : parseTcpPath text = some e) : Accepted c text := by
  obtain ⟨htcp, hlength⟩ := isTcp_of_parse h
  refine ⟨hlength, (not_file_of_tcp htcp).1, Or.inr ⟨htcp, fun _ => ?_⟩⟩
  rw [h]
  rfl

theorem getLast?_checkPath {filePath : List Char} (h : filePath ≠ []) :
    (checkPath statDir filePath).1.getLast? = some '/' := by
  unfold checkPath
  rw [if_neg h]
  exact List.getLast?_concat

theorem checkPath_of_getLast? {filePath : List Char} (h : filePath.getLast? = some '/') :
    (checkPath statDir filePath).1 = filePath := by
  have hne : filePath ≠ [] := by
    rintro rfl
    cases h
  obtain ⟨initial, rfl⟩ := List.getLast?_eq_some_iff.mp h
  unfold checkPath
  rw [if_neg hne]
  dsimp only
  rw [if_pos h, List.dropLast_concat]

theorem checkDirPath_filePath {p : DirPath} (h : p.filePath ≠ []) :
    (checkDirPath statDir p).1.filePath = (checkPath statDir p.filePath).1 := by
  unfold checkDirPath
  rw [if_neg h]

theorem normal_checkDirPath (p : DirPath) : Normal (checkDirPath statDir p).1 := by
  by_cases h : p.filePath = []
  · refine Or.inl ?_
    unfold checkDirPath
    rwa [if_pos h]
  · have hlast : (checkDirPath statDir p).1.filePath.getLast? = some '/' := by
      rw [checkDirPath_filePath h, getLast?_checkPath h]
    refine Or.inr ⟨hlast, fun statDir' => ?_⟩
    have hne : (checkDirPath statDir p).1.filePath ≠ [] := by
      intro hnil
      rw [hnil] at hlast
      cases hlast
    rw [checkDirPath_filePath hne, checkPath_of_getLast? hlast]

/-! ## Checks -/

/-- The kind of a text of more than six characters. -/
theorem pathKind_stream (h : text.length > 6) :
    (pathKind statDir text).1 = some (if isFile text then if singleSlash text then 0 else 3
      else if isHttp text then 1 else if isTcp text then 2 else 3) := by
  unfold pathKind
  rw [if_pos h]
  split_ifs <;> rfl

/-- Whether a path exists that is not one of a file. -/
theorem pathKind_exists (statDir : List Char → Bool) (h : isFile text = false) :
    (pathKind statDir text).2 = true ↔ text.length > 6 ∧ (isHttp text = true ∨ isTcp text = true) := by
  unfold pathKind
  rw [h]
  split_ifs <;> simp_all

theorem pathKind_refused (h : isFile text = true) (hslash : ¬(text.length > 6 ∧ singleSlash text)) :
    (pathKind statDir text).2 = false := by
  unfold pathKind
  by_cases hlength : text.length > 6
  · rw [if_pos hlength, if_pos h, if_neg fun hsingle => hslash ⟨hlength, hsingle⟩]
  · rw [if_neg hlength]

theorem checkChannelPath_base (p : ChannelPath) : (checkChannelPath statDir p).1.base = p.base := by
  unfold checkChannelPath
  split <;> rfl

theorem checkChannelPath_of_ne {p : ChannelPath} (h : p.base ≠ []) :
    checkChannelPath statDir p = ({ p with
      stream := p.stream.map ((pathKind statDir p.base).1.getD ·)
      filePathExists := if (pathKind statDir p.base).2 then 1 else 0 }, (pathKind statDir p.base).2) := by
  unfold checkChannelPath
  rw [if_neg h]

theorem classified_of_nil {p : ChannelPath} (h : p.base = []) : Classified c p := by
  refine ⟨fun hlength => ?_, fun hne => absurd h hne, fun hne => absurd h hne⟩
  rw [h] at hlength
  cases hlength

/-- The stream parameter after a check. -/
theorem stream_checkChannelPath {p : ChannelPath} (h : p.base.length > 6) (v : ℤ)
    (hv : v ∈ (checkChannelPath statDir p).1.stream) :
    v = if isFile p.base then if singleSlash p.base then 0 else 3
      else if isHttp p.base then 1 else if isTcp p.base then 2 else 3 := by
  have hne : p.base ≠ [] := by
    intro hnil
    rw [hnil] at h
    cases h
  rw [checkChannelPath_of_ne hne] at hv
  obtain ⟨old, -, hold⟩ := Option.map_eq_some_iff.mp hv
  rw [← hold, pathKind_stream h]
  rfl

theorem flag_iff {b : Bool} {P : Prop} (h : b = true ↔ P) :
    ((if b then (1 : ℤ) else 0) = 1 ↔ P) ∧ ((if b then (1 : ℤ) else 0) = 0 ↔ ¬P) := by
  cases b <;> simp_all

/-- The check of a channel that has no worker, or whose worker is told its endpoint otherwise. -/
theorem classified_checkChannelPath (hstream : streamOf c = none) (p : ChannelPath) :
    Classified c (checkChannelPath statDir p).1 := by
  by_cases hne : p.base = []
  · exact classified_of_nil (by rw [checkChannelPath_base, hne])
  · refine ⟨fun hlength v hv => ?_, fun _ hfile => ?_, fun _ hfile hslash => ?_⟩
    · rw [checkChannelPath_base] at hlength ⊢
      exact stream_checkChannelPath hlength v hv
    · rw [checkChannelPath_base] at hfile ⊢
      rw [checkChannelPath_of_ne hne]
      refine flag_iff ((pathKind_exists statDir hfile).trans ?_)
      unfold Accepted
      rw [hstream]
      simp [hfile]
    · rw [checkChannelPath_base] at hfile hslash
      rw [checkChannelPath_of_ne hne, pathKind_refused hfile hslash]
      rfl

theorem checkStreamPath_base (p : ChannelPath) (e : Endpoint) : (checkStreamPath statDir p e).1.base = p.base := by
  unfold checkStreamPath
  dsimp only
  split
  · split <;> exact checkChannelPath_base p
  · exact checkChannelPath_base p

theorem checkStreamPath_stream (p : ChannelPath) (e : Endpoint) :
    (checkStreamPath statDir p e).1.stream = (checkChannelPath statDir p).1.stream := by
  unfold checkStreamPath
  dsimp only
  split
  · split <;> rfl
  · rfl

/-- A path that exists and is one of a TCP stream has to be parsed, too. -/
theorem checkStreamPath_exists {p : ChannelPath} (hne : p.base ≠ []) (e : Endpoint) :
    (checkStreamPath statDir p e).1.filePathExists =
      if (pathKind statDir p.base).2 && (!isTcp p.base || (parseTcpPath p.base).isSome) then 1 else 0 := by
  unfold checkStreamPath
  rw [checkChannelPath_of_ne hne]
  dsimp only
  cases hkind : (pathKind statDir p.base).2 with
  | false => rfl
  | true =>
    cases htcp : isTcp p.base with
    | false => rfl
    | true => cases hparse : parseTcpPath p.base <;> rfl

/-- The endpoint after a check: that of the path, or the one there was. -/
theorem checkStreamPath_endpoint (p : ChannelPath) (old : Endpoint) :
    (checkStreamPath statDir p old).2.1 = (parseTcpPath p.base).getD old := by
  unfold checkStreamPath
  dsimp only
  rw [checkChannelPath_base]
  cases hparse : parseTcpPath p.base with
  | none => split <;> rfl
  | some e =>
    obtain ⟨htcp, hlength⟩ := isTcp_of_parse hparse
    have hne : p.base ≠ [] := by
      intro hnil
      rw [hnil] at hlength
      cases hlength
    have hkind := (pathKind_exists statDir (not_file_of_tcp htcp).1).mpr ⟨hlength, Or.inr htcp⟩
    rw [checkChannelPath_of_ne hne, htcp, Bool.and_true, if_pos hkind]
    rfl

theorem classified_checkStreamPath (hstream : (streamOf c).isSome) (p : ChannelPath) (old : Endpoint) :
    Classified c (checkStreamPath statDir p old).1 := by
  by_cases hne : p.base = []
  · exact classified_of_nil (by rw [checkStreamPath_base, hne])
  · refine ⟨fun hlength v hv => ?_, fun _ hfile => ?_, fun _ hfile hslash => ?_⟩
    · rw [checkStreamPath_base] at hlength ⊢
      rw [checkStreamPath_stream] at hv
      exact stream_checkChannelPath hlength v hv
    · rw [checkStreamPath_base] at hfile ⊢
      rw [checkStreamPath_exists hne]
      have hkind := pathKind_exists statDir hfile
      refine flag_iff ?_
      unfold Accepted
      rw [Bool.and_eq_true, hkind]
      by_cases htcp : isTcp p.base = true
      · simp [hfile, hstream, htcp, (not_file_of_tcp htcp).2]
      · simp [hfile, htcp]
    · rw [checkStreamPath_base] at hfile hslash
      rw [checkStreamPath_exists hne, pathKind_refused hfile hslash]
      rfl

/-! ## What a check does to the driver -/

/-- Checks of paths: the texts stay, a path is left alone or classified anew, an endpoint is left alone or that of the
path; those of the checked channels are. -/
structure Checked (checked : Channel → Prop) (s s' : System) : Prop where
  rest : s' = { s with path := s'.path, endpoint := s'.endpoint }
  base : ∀ c, (s'.path c).base = (s.path c).base
  path : ∀ c, s'.path c = s.path c ∨ Classified c (s'.path c)
  endpoint : ∀ channel, s'.endpoint channel = s.endpoint channel ∨
    parseTcpPath (s.path (pathOf channel)).base = some (s'.endpoint channel)
  current : ∀ channel, checked channel → Current s' channel

theorem Checked.refl (s : System) : Checked (fun _ => False) s s :=
  ⟨rfl, fun _ => rfl, fun _ => Or.inl rfl, fun _ => Or.inl rfl, fun _ h => h.elim⟩

theorem Checked.mono {checked checked' : Channel → Prop} (h : Checked checked s s')
    (hsub : ∀ channel, checked' channel → Current s' channel) : Checked checked' s s' :=
  ⟨h.rest, h.base, h.path, h.endpoint, hsub⟩

/-- A channel that is current stays so. -/
theorem Checked.keeps {checked : Channel → Prop} (h : Checked checked s s') (hcurrent : Current s channel) :
    Current s' channel := by
  intro e he
  rw [h.base] at he
  rcases h.endpoint channel with hsame | hparse
  · rw [hsame]
    exact hcurrent e he
  · exact Option.some.inj (hparse.symm.trans he)

theorem Checked.trans {checked checked' : Channel → Prop} {s'' : System} (h : Checked checked s s')
    (h' : Checked checked' s' s'') : Checked (fun channel => checked channel ∨ checked' channel) s s'' := by
  refine ⟨?_, fun c => (h'.base c).trans (h.base c), fun c => ?_, fun channel => ?_, fun channel hor => ?_⟩
  · rw [h'.rest, h.rest]
  · rcases h'.path c with hsame | hclassified
    · rw [hsame]
      exact h.path c
    · exact Or.inr hclassified
  · rcases h'.endpoint channel with hsame | hparse
    · rw [hsame]
      exact h.endpoint channel
    · rw [h.base] at hparse
      exact Or.inr hparse
  · rcases hor with hfirst | hsecond
    · exact h'.keeps (h.current channel hfirst)
    · exact h'.current channel hsecond

theorem streamOf_eq_some (h : streamOf c = some channel) : c = pathOf channel := by
  cases c <;> cases h <;> rfl

theorem pathOf_injective {channel channel' : Channel} (h : pathOf channel = pathOf channel') : channel = channel' := by
  cases channel <;> cases channel' <;> first | rfl | cases h

theorem checkPathOf_eq (statDir : List Char → Bool) (c : PathChannel) (s : System) :
    checkPathOf statDir c s = checkBase statDir c s := by
  cases c <;> rfl

theorem checked_checkBase (statDir : List Char → Bool) (c : PathChannel) (s : System) :
    Checked (fun channel => streamOf c = some channel) s (checkBase statDir c s) := by
  cases hstream : streamOf c with
  | none =>
    have heq : checkBase statDir c s =
        { s with path := Function.update s.path c (checkChannelPath statDir (s.path c)).1 } := by
      unfold checkBase
      rw [hstream]
    rw [heq]
    refine ⟨rfl, fun c' => ?_, fun c' => ?_, fun _ => Or.inl rfl, fun _ h => by cases h⟩
    · by_cases hc : c' = c
      · subst hc
        dsimp only
        rw [Function.update_self, checkChannelPath_base]
      · dsimp only
        rw [Function.update_of_ne hc]
    · by_cases hc : c' = c
      · subst hc
        dsimp only
        rw [Function.update_self]
        exact Or.inr (classified_checkChannelPath hstream _)
      · exact Or.inl (Function.update_of_ne hc _ _)
  | some channel =>
    have heq : checkBase statDir c s =
        { s with
          path := Function.update s.path c (checkStreamPath statDir (s.path c) (s.endpoint channel)).1
          endpoint := Function.update s.endpoint channel
            (checkStreamPath statDir (s.path c) (s.endpoint channel)).2.1 } := by
      unfold checkBase
      rw [hstream]
    obtain rfl := streamOf_eq_some hstream
    rw [heq]
    have hbase : ∀ c', (Function.update s.path (pathOf channel)
        (checkStreamPath statDir (s.path (pathOf channel)) (s.endpoint channel)).1 c').base = (s.path c').base := by
      intro c'
      by_cases hc : c' = pathOf channel
      · subst hc
        rw [Function.update_self, checkStreamPath_base]
      · rw [Function.update_of_ne hc]
    refine ⟨rfl, hbase, fun c' => ?_, fun channel' => ?_, fun channel' hchannel e he => ?_⟩
    · by_cases hc : c' = pathOf channel
      · subst hc
        dsimp only
        rw [Function.update_self]
        exact Or.inr (classified_checkStreamPath (by rw [hstream]; rfl) _ _)
      · exact Or.inl (Function.update_of_ne hc _ _)
    · by_cases hc : channel' = channel
      · subst hc
        dsimp only
        rw [Function.update_self, checkStreamPath_endpoint]
        cases parseTcpPath (s.path (pathOf channel')).base with
        | none => exact Or.inl rfl
        | some e => exact Or.inr rfl
      · exact Or.inl (Function.update_of_ne hc _ _)
    · obtain rfl := Option.some.inj hchannel
      have hparse : parseTcpPath (s.path (pathOf channel)).base = some e := by
        rw [← hbase]
        exact he
      dsimp only
      rw [Function.update_self, checkStreamPath_endpoint, hparse]
      rfl

/-- `syncTcpStreamEndpoints` brings the enabled channels up to date. -/
theorem checked_sync (statDir : List Char → Bool) (s : System) :
    Checked (fun channel => channel ≠ .prvHst ∧ s.write channel ≠ 0) s (syncTcpStreamEndpoints statDir s) := by
  have hite : ∀ (s₁ : System) (P : Prop) [Decidable P] (c : PathChannel),
      Checked (fun channel => P ∧ streamOf c = some channel) s₁ (if P then checkBase statDir c s₁ else s₁) := by
    intro s₁ P hdec c
    split
    case isTrue hP => exact (checked_checkBase statDir c s₁).mono fun channel h =>
      (checked_checkBase statDir c s₁).current channel h.2
    case isFalse hP => exact (Checked.refl s₁).mono fun channel h => absurd h.1 hP
  have hfirst := hite s (s.write .prvImg ≠ 0) .prvImg
  set s₁ := if s.write .prvImg ≠ 0 then checkBase statDir .prvImg s else s with hs₁
  have hsecond := hite s₁ (s₁.write .prvImg1 ≠ 0) .prvImg1
  set s₂ := if s₁.write .prvImg1 ≠ 0 then checkBase statDir .prvImg1 s₁ else s₁ with hs₂
  have hthird := hite s₂ (s₂.write .img ≠ 0 ∧ isTcp (s₂.path .img).base) .img
  have hall := (hfirst.trans hsecond).trans hthird
  have hwrite₁ : s₁.write = s.write := by rw [hfirst.rest]
  have hwrite₂ : s₂.write = s.write := by rw [hsecond.rest, hwrite₁]
  refine Checked.mono hall fun channel hchannel => ?_
  cases channel with
  | prvImg => exact hall.current _ (Or.inl (Or.inl ⟨hchannel.2, rfl⟩))
  | prvImg1 => exact hall.current _ (Or.inl (Or.inr ⟨by rw [hwrite₁]; exact hchannel.2, rfl⟩))
  | img =>
    intro e he
    have htcp : isTcp (s₂.path .img).base = true := by
      have hparse : parseTcpPath (s₂.path (pathOf .img)).base = some e := by
        rw [← hthird.base]
        exact he
      exact (isTcp_of_parse hparse).1
    exact hall.current .img (Or.inr ⟨⟨by rw [hwrite₂]; exact hchannel.2, htcp⟩, rfl⟩) e he
  | prvHst => exact absurd rfl hchannel.1

/-! ## Moving to other ports -/

/-- A channel as the loop leaves it: as it was, or with a path to another port. -/
def Moved (c c' : PreviewTcpChannel) : Prop :=
  c' = c ∨ ∃ e q, c.endpoint = some e ∧ 1 ≤ q ∧ q ≤ 65535 ∧ c' = { c with baseParam := makeListenTcpPath e.host q }

theorem moved_ensureChannels (isTcpPortInUse : List Char → ℕ → Bool) (forceRotate : Bool) (reserved : List ℕ)
    (channels : List PreviewTcpChannel) :
    List.Forall₂ Moved channels (ensureChannels isTcpPortInUse forceRotate reserved channels).1 := by
  induction channels generalizing reserved with
  | nil => exact List.Forall₂.nil
  | cons c channels ih =>
    unfold ensureChannels
    split
    · exact List.Forall₂.cons (Or.inl rfl) (List.forall₂_same.mpr fun _ _ => Or.inl rfl)
    · rename_i reserved' c' hc
      refine List.Forall₂.cons ?_ (ih reserved')
      rcases ensureChannel_cases hc with ⟨-, rfl, -⟩ | ⟨e, he, ⟨-, -, rfl, -⟩ | ⟨-, q, hnext, rfl, -⟩⟩
      · exact Or.inl rfl
      · exact Or.inl rfl
      · obtain ⟨hstart, hle, -⟩ := nextFreeTcpPort_spec hnext
        exact Or.inr ⟨e, q, he, by omega, hle, rfl⟩

/-- What is known of a path that has been moved. -/
theorem Moved.parse {ch ch' : PreviewTcpChannel} (h : Moved ch ch') (hne : ch'.baseParam ≠ ch.baseParam) :
    ch.writeParam ≠ 0 ∧ (parseTcpPath ch.baseParam).isSome ∧ (parseTcpPath ch'.baseParam).isSome := by
  rcases h with rfl | ⟨e, q, he, hpos, hle, rfl⟩
  · exact absurd rfl hne
  · obtain ⟨hwrite, hparse⟩ := endpoint_spec he
    obtain ⟨-, hparse'⟩ := endpoint_spec (endpoint_moved he hpos hle)
    exact ⟨hwrite, by rw [hparse]; rfl, by rw [hparse']; rfl⟩

theorem Moved.writeParam {ch ch' : PreviewTcpChannel} (h : Moved ch ch') : ch'.writeParam = ch.writeParam := by
  rcases h with rfl | ⟨e, q, -, -, -, rfl⟩ <;> rfl

variable {ch : PreviewTcpChannel}

theorem moveBase_rest (s : System) (channel : Channel) (ch : PreviewTcpChannel) :
    moveBase s (channel, ch) =
      { s with path := (moveBase s (channel, ch)).path, texts := (moveBase s (channel, ch)).texts } := by
  unfold moveBase
  split <;> rfl

theorem moveBase_base (s : System) (channel : Channel) (ch : PreviewTcpChannel) :
    ((moveBase s (channel, ch)).path (pathOf channel)).base = ch.baseParam := by
  unfold moveBase
  split
  case isTrue h => exact h.symm
  case isFalse =>
    unfold setBase
    dsimp only
    rw [Function.update_self]

theorem previewChannel_moveBase_ne {channel channel' : Channel} (h : channel' ≠ channel) (ch : PreviewTcpChannel) :
    previewChannel (moveBase s (channel, ch)) channel' = previewChannel s channel' := by
  have hpath : pathOf channel' ≠ pathOf channel := fun heq => h (pathOf_injective heq)
  unfold moveBase
  split
  · rfl
  · unfold previewChannel setBase
    dsimp only
    rw [Function.update_of_ne hpath]

/-- What every move preserves. -/
theorem foldl_moveBase {inv : System → Prop}
    (hmove : ∀ s channel ch, inv s → Moved (previewChannel s channel) ch → inv (moveBase s (channel, ch)))
    {cs : List Channel} (hnodup : cs.Nodup) (hs : inv s) {chs : List PreviewTcpChannel}
    (hmoved : List.Forall₂ Moved (cs.map (previewChannel s)) chs) : inv ((cs.zip chs).foldl moveBase s) := by
  induction cs generalizing s chs with
  | nil => exact hs
  | cons channel cs ih =>
    cases hmoved with
    | @cons _ ch _ chs hhead htail =>
      obtain ⟨hfresh, hnodup⟩ := List.nodup_cons.mp hnodup
      refine ih hnodup (hmove s channel ch hs hhead) ?_
      have hmap : cs.map (previewChannel (moveBase s (channel, ch))) = cs.map (previewChannel s) := by
        refine List.map_congr_left fun channel' hmem => previewChannel_moveBase_ne ?_ ch
        rintro rfl
        exact hfresh hmem
      rw [hmap]
      exact htail

theorem previewChannel_foldl_moveBase {cs : List Channel} (hfresh : channel ∉ cs) (chs : List PreviewTcpChannel) :
    previewChannel ((cs.zip chs).foldl moveBase s) channel = previewChannel s channel := by
  induction cs generalizing s chs with
  | nil => rfl
  | cons channel' cs ih =>
    cases chs with
    | nil => rfl
    | cons ch chs =>
      rw [List.zip_cons_cons, List.foldl_cons, ih (fun hmem => hfresh (List.mem_cons_of_mem _ hmem))]
      refine previewChannel_moveBase_ne ?_ ch
      rintro rfl
      exact hfresh List.mem_cons_self

/-- The channels are then those that the loop has left. -/
theorem map_foldl_moveBase {cs : List Channel} (hnodup : cs.Nodup) {chs : List PreviewTcpChannel}
    (hmoved : List.Forall₂ Moved (cs.map (previewChannel s)) chs) :
    cs.map (previewChannel ((cs.zip chs).foldl moveBase s)) = chs := by
  induction cs generalizing s chs with
  | nil =>
    cases hmoved
    rfl
  | cons channel cs ih =>
    cases hmoved with
    | @cons _ ch _ chs hhead htail =>
      obtain ⟨hfresh, hnodup⟩ := List.nodup_cons.mp hnodup
      have hmap : cs.map (previewChannel (moveBase s (channel, ch))) = cs.map (previewChannel s) := by
        refine List.map_congr_left fun channel' hmem => previewChannel_moveBase_ne ?_ ch
        rintro rfl
        exact hfresh hmem
      have hhead' : previewChannel (moveBase s (channel, ch)) channel = ch := by
        have hwrite : (moveBase s (channel, ch)).write = s.write := by rw [moveBase_rest]
        unfold previewChannel
        rw [moveBase_base, hwrite]
        have hparam : ch.writeParam = s.write channel := hhead.writeParam
        rw [← hparam]
      rw [List.map_cons, List.zip_cons_cons, List.foldl_cons, previewChannel_foldl_moveBase hfresh, hhead',
        ih hnodup (by rw [hmap]; exact htail)]

theorem toList_previewTcpChannels (s : System) :
    (previewTcpChannels s).toList = [Channel.prvImg, .prvImg1, .img, .prvHst].map (previewChannel s) := rfl

theorem nodup_channels : [Channel.prvImg, .prvImg1, .img, .prvHst].Nodup := by decide

theorem setBases_inv (inv : System → Prop)
    (hmove : ∀ s channel ch, inv s → Moved (previewChannel s channel) ch → inv (moveBase s (channel, ch)))
    (hs : inv s) (isTcpPortInUse : List Char → ℕ → Bool) (forceRotate : Bool) :
    inv (setBases (ensurePreviewTcpPortsFree isTcpPortInUse forceRotate (previewTcpChannels s)).1 s) :=
  foldl_moveBase hmove nodup_channels hs (moved_ensureChannels isTcpPortInUse forceRotate [] _)

/-! ## What a start preserves -/

/-- What each part of a start preserves; with `failing` also one that finds no ports. -/
structure Kept (failing : Prop) (inv : System → Prop) : Prop where
  ensure : ∀ s isTcpPortInUse forceRotate statDir, inv s →
    failing ∨ (ensurePortsFree isTcpPortInUse forceRotate statDir s).2.isSome →
    inv (ensurePortsFree isTcpPortInUse forceRotate statDir s).1
  sync : ∀ s statDir, inv s → inv (syncTcpStreamEndpoints statDir s)
  workers : ∀ s running workerThreadId, inv s →
    inv { s with running := running, workerThreadId := workerThreadId }
  hst : ∀ s e, inv s → parseTcpPath (s.path .prvHst).base = some e →
    inv { s with endpoint := Function.update s.endpoint .prvHst e }

variable {inv : System → Prop} {failing : Prop}

/-- What every move and every check preserves. -/
theorem Kept.of_moves
    (hmove : ∀ s channel ch, inv s → Moved (previewChannel s channel) ch → inv (moveBase s (channel, ch)))
    (hcheck : ∀ s s' checked, inv s → Checked checked s s' → inv s')
    (hworkers : ∀ s running workerThreadId, inv s →
      inv { s with running := running, workerThreadId := workerThreadId })
    (hhst : ∀ s e, inv s → parseTcpPath (s.path .prvHst).base = some e →
      inv { s with endpoint := Function.update s.endpoint .prvHst e }) : Kept True inv where
  ensure s isTcpPortInUse forceRotate statDir hs _ := by
    have hset := setBases_inv inv hmove hs isTcpPortInUse forceRotate
    unfold ensurePortsFree
    dsimp only
    split
    · exact hset
    · exact hcheck _ _ _ hset (checked_sync statDir _)
  sync s statDir hs := hcheck _ _ _ hs (checked_sync statDir s)
  workers := hworkers
  hst := hhst

theorem Kept.startWorker (h : Kept failing inv) (hs : inv s) (channel : Channel) : inv (startWorker channel s) := by
  unfold Endpoints.startWorker
  split
  · exact h.workers s _ _ hs
  · exact hs

theorem Kept.startPrvHst (h : Kept failing inv) (hs : inv s) : inv (startPrvHst s) := by
  unfold Endpoints.startPrvHst
  split
  · split
    · rename_i e hparse
      exact h.startWorker (h.hst s e hs hparse) .prvHst
    · exact hs
  · exact hs

theorem Kept.startWorkers (h : Kept failing inv) (hs : inv s) (statDir : List Char → Bool) :
    inv (startWorkers statDir s) := by
  have hite : ∀ (s₁ : System) (P : Prop) [Decidable P] (channel : Channel), inv s₁ →
      inv (if P then Endpoints.startWorker channel s₁ else s₁) := by
    intro s₁ P hdec channel hs₁
    split
    · exact h.startWorker hs₁ channel
    · exact hs₁
  unfold Endpoints.startWorkers
  exact h.startPrvHst (hite _ _ _ (hite _ _ _ (hite _ _ _ (h.sync s statDir hs))))

theorem Kept.stopWorkers (h : Kept failing inv) (hs : inv s) (channels : List Channel) : inv (stopWorkers channels s) :=
  h.workers s _ _ hs

theorem Kept.retryStart (h : Kept failing inv) (hs : inv s) (r : StartReplies)
    (hfinds : failing ∨ (ensurePortsFree r.isTcpPortInUse₂ true r.statDir s).2.isSome) :
    inv (retryStart r s).1 := by
  have hensured := h.ensure s r.isTcpPortInUse₂ true r.statDir hs hfinds
  unfold Endpoints.retryStart
  cases hresult : ensurePortsFree r.isTcpPortInUse₂ true r.statDir s with
  | mk s₁ result =>
    rw [hresult] at hensured
    cases result with
    | none => exact h.stopWorkers hensured _
    | some changed =>
      dsimp only
      split
      · exact h.startWorkers hensured r.statDir
      · exact h.stopWorkers hensured _

theorem Kept.acquireStart (h : Kept failing inv) (hs : inv s) (r : StartReplies)
    (hfinds : failing ∨ FindsPorts s (.acquireStart r)) : inv (acquireStart r s).1 := by
  have hstopped := h.stopWorkers hs [.prvImg, .prvImg1, .img]
  have hensured := h.ensure _ r.isTcpPortInUse false r.statDir hstopped (hfinds.imp_right And.left)
  unfold Endpoints.acquireStart
  dsimp only
  split
  · exact hstopped
  · cases hresult : ensurePortsFree r.isTcpPortInUse false r.statDir
        (Endpoints.stopWorkers [.prvImg, .prvImg1, .img] s) with
    | mk s₁ result =>
      rw [hresult] at hensured
      cases result with
      | none => exact hensured
      | some changed =>
        dsimp only
        split
        · exact hensured
        · cases hstart : r.start with
          | started => exact h.startWorkers hensured r.statDir
          | failed => exact h.stopWorkers hensured _
          | addressInUse =>
            refine h.retryStart hensured r (hfinds.imp_right fun hboth => ?_)
            have hsecond := hboth.2 hstart
            rwa [hresult] at hsecond

/-! ## The parameters of the paths -/

/-- A path that is moved is of the kind that it was. -/
theorem Classified.moved {p : ChannelPath} (h : Classified c p) (hold : (parseTcpPath p.base).isSome)
    (hnew : (parseTcpPath text).isSome) : Classified c { p with base := text } := by
  obtain ⟨e, he⟩ := Option.isSome_iff_exists.mp hold
  obtain ⟨e', he'⟩ := Option.isSome_iff_exists.mp hnew
  obtain ⟨htcp, hlength⟩ := isTcp_of_parse he
  obtain ⟨htcp', -⟩ := isTcp_of_parse he'
  obtain ⟨hfile, hhttp⟩ := not_file_of_tcp htcp
  obtain ⟨hfile', hhttp'⟩ := not_file_of_tcp htcp'
  have hne : p.base ≠ [] := by
    intro hnil
    rw [hnil] at hlength
    cases hlength
  have hexists : p.filePathExists = 1 := (h.accepted hne hfile).1.mpr (accepted_of_parse c he)
  refine ⟨fun _ v hv => ?_, fun _ _ => ?_, fun _ hfile'' => ?_⟩
  · have hstream := h.stream hlength v hv
    rw [hfile, hhttp, htcp] at hstream
    dsimp only
    rw [hfile', hhttp', htcp']
    exact hstream
  · dsimp only
    rw [hexists]
    exact ⟨iff_of_true rfl (accepted_of_parse c he'),
      iff_of_false (by decide) (not_not.mpr (accepted_of_parse c he'))⟩
  · dsimp only at hfile''
    rw [hfile'] at hfile''
    cases hfile''

/-- The paths of the driver say what they are. -/
structure PathsRight (s : System) : Prop where
  classified : ∀ c, Classified c (s.path c)
  bpc : Normal s.bpc
  dacs : Normal s.dacs

theorem PathsRight.check {checked : Channel → Prop} (h : PathsRight s) (hchecked : Checked checked s s') :
    PathsRight s' := by
  have hbpc : s'.bpc = s.bpc := by rw [hchecked.rest]
  have hdacs : s'.dacs = s.dacs := by rw [hchecked.rest]
  refine ⟨fun c => ?_, hbpc ▸ h.bpc, hdacs ▸ h.dacs⟩
  rcases hchecked.path c with hsame | hclassified
  · rw [hsame]
    exact h.classified c
  · exact hclassified

theorem kept_pathsRight : Kept True PathsRight := by
  refine Kept.of_moves (fun s channel ch h hmoved => ?_) (fun _ _ _ h hchecked => h.check hchecked)
    (fun _ _ _ h => ⟨h.classified, h.bpc, h.dacs⟩) fun _ _ h _ => ⟨h.classified, h.bpc, h.dacs⟩
  · unfold moveBase
    split
    case isTrue => exact h
    case isFalse hne =>
      obtain ⟨-, hold, hnew⟩ := hmoved.parse hne
      refine ⟨fun c => ?_, h.bpc, h.dacs⟩
      by_cases hc : c = pathOf channel
      · subst hc
        show Classified _ (Function.update s.path _ _ _)
        rw [Function.update_self]
        exact (h.classified _).moved hold hnew
      · show Classified _ (Function.update s.path _ _ _)
        rw [Function.update_of_ne hc]
        exact h.classified c

/-- The path that is written is classified by the check. -/
theorem classified_writeBase (c : PathChannel) (value : List Char) :
    Classified c ((writeBase statDir c value s).path c) := by
  unfold writeBase
  rw [checkPathOf_eq]
  generalize setBase c (octetValue value) s = s₁
  unfold checkBase
  split
  · rename_i hstream
    dsimp only
    rw [Function.update_self]
    exact classified_checkChannelPath hstream _
  · rename_i channel hstream
    dsimp only
    rw [Function.update_self]
    exact classified_checkStreamPath (by rw [hstream]; rfl) _ _

theorem step_connect (h : step s (.connect channel) = some s') : s' = connect channel s := by
  have hite : (if s.running channel then some (connect channel s) else none) = some s' := h
  split at hite
  · exact (Option.some.inj hite).symm
  · cases hite

theorem step_closed (h : step s (.closed channel) = some s') :
    s' = { s with running := Function.update s.running channel false } := by
  have hite : (if s.running channel then some { s with running := Function.update s.running channel false }
    else none) = some s' := h
  split at hite
  · exact (Option.some.inj hite).symm
  · cases hite

theorem path_setBase_ne {c' : PathChannel} (h : c' ≠ c) (text : List Char) :
    (setBase c text s).path c' = s.path c' := Function.update_of_ne h _ _

theorem PathsRight.step {event : Event} (h : PathsRight s) (hstep : step s event = some s') : PathsRight s' := by
  cases event with
  | writeBase c value statDir =>
    obtain rfl := Option.some.inj hstep
    have hchecked := checked_checkBase statDir c (setBase c (octetValue value) s)
    rw [← checkPathOf_eq] at hchecked
    have hbpc : (writeBase statDir c value s).bpc = s.bpc := by
      unfold writeBase
      rw [hchecked.rest]
      rfl
    have hdacs : (writeBase statDir c value s).dacs = s.dacs := by
      unfold writeBase
      rw [hchecked.rest]
      rfl
    refine ⟨fun c' => ?_, hbpc ▸ h.bpc, hdacs ▸ h.dacs⟩
    by_cases hc : c' = c
    · subst hc
      exact classified_writeBase c' value
    · rcases hchecked.path c' with hsame | hclassified
      · show Classified c' ((checkPathOf statDir c (setBase c (octetValue value) s)).path c')
        rw [hsame, path_setBase_ne hc]
        exact h.classified c'
      · exact hclassified
  | writeBPCFilePath value statDir =>
    obtain rfl := Option.some.inj hstep
    exact ⟨h.classified, normal_checkDirPath _, h.dacs⟩
  | writeDACSFilePath value statDir =>
    obtain rfl := Option.some.inj hstep
    exact ⟨h.classified, h.bpc, normal_checkDirPath _⟩
  | set setting value =>
    obtain rfl := Option.some.inj hstep
    cases setting <;> exact ⟨h.classified, h.bpc, h.dacs⟩
  | acquireStart r =>
    obtain rfl := Option.some.inj hstep
    exact kept_pathsRight.acquireStart h r (Or.inl trivial)
  | acquireStop =>
    obtain rfl := Option.some.inj hstep
    exact kept_pathsRight.stopWorkers h _
  | connect channel =>
    obtain rfl := step_connect hstep
    unfold Endpoints.connect
    dsimp only
    split <;> exact ⟨h.classified, h.bpc, h.dacs⟩
  | closed channel =>
    obtain rfl := step_closed hstep
    exact ⟨h.classified, h.bpc, h.dacs⟩

/-- A start that is answered at once, with no port in use. -/
def answered : StartReplies where
  conflict := false
  statDir _ := false
  isTcpPortInUse _ _ := false
  fileWriter := true
  start := .started
  isTcpPortInUse₂ _ _ := false
  fileWriter₂ := true
  start₂ := true

def previewPath : List Char := "tcp://listen@localhost:8089".toList

/-- The preview is given a path, enabled and started, and its worker connects. -/
def previewRun : List Event :=
  [.writeBase .prvImg previewPath (fun _ => false), .set (.write .prvImg) 1, .acquireStart answered, .connect .prvImg]

theorem FromText.mono (h : FromText s channel e) (hsub : ∀ c, s.texts c ⊆ s'.texts c) : FromText s' channel e := by
  obtain ⟨text, hmem, hparse⟩ := h
  exact ⟨text, hsub _ hmem, hparse⟩

/-- Every endpoint is that of a text. -/
structure Given (s : System) : Prop where
  base : ∀ c, (s.path c).base = [] ∨ (s.path c).base ∈ s.texts c
  endpoint : ∀ channel, s.endpoint channel = ⟨[], 0⟩ ∨ FromText s channel (s.endpoint channel)
  connections : ∀ x ∈ s.connections, FromText s x.1 x.2

/-- The text that is there is one that has been. -/
theorem Given.fromText (h : Given s) (hparse : parseTcpPath (s.path (pathOf channel)).base = some e) :
    FromText s channel e := by
  rcases h.base (pathOf channel) with hnil | hmem
  · rw [hnil] at hparse
    cases hparse
  · exact ⟨_, hmem, hparse⟩

theorem Given.check {checked : Channel → Prop} (h : Given s) (hchecked : Checked checked s s') : Given s' := by
  have htexts : s'.texts = s.texts := by rw [hchecked.rest]
  have hconnections : s'.connections = s.connections := by rw [hchecked.rest]
  have hmono : ∀ {channel e}, FromText s channel e → FromText s' channel e := fun hfrom =>
    hfrom.mono fun c => by rw [htexts]; exact fun _ hmem => hmem
  refine ⟨fun c => ?_, fun channel => ?_, fun x hx => ?_⟩
  · rw [hchecked.base, htexts]
    exact h.base c
  · rcases hchecked.endpoint channel with hsame | hparse
    · rw [hsame]
      exact (h.endpoint channel).imp_right hmono
    · exact Or.inr (hmono (h.fromText hparse))
  · rw [hconnections] at hx
    exact hmono (h.connections x hx)

theorem subset_texts_setBase (c : PathChannel) (text : List Char) (s : System) (c' : PathChannel) :
    s.texts c' ⊆ (setBase c text s).texts c' := by
  intro t ht
  unfold setBase
  dsimp only
  by_cases hc : c' = c
  · subst hc
    rw [Function.update_self]
    exact List.mem_cons_of_mem _ ht
  · rwa [Function.update_of_ne hc]

theorem Given.setBase (h : Given s) (c : PathChannel) (text : List Char) : Given (setBase c text s) := by
  have hmono : ∀ {channel e}, FromText s channel e → FromText (Endpoints.setBase c text s) channel e := fun hfrom =>
    hfrom.mono (subset_texts_setBase c text s)
  refine ⟨fun c' => ?_, fun channel => (h.endpoint channel).imp_right hmono, fun x hx => hmono (h.connections x hx)⟩
  by_cases hc : c' = c
  · subst hc
    refine Or.inr ?_
    unfold Endpoints.setBase
    dsimp only
    rw [Function.update_self, Function.update_self]
    exact List.mem_cons_self
  · rw [path_setBase_ne hc]
    exact (h.base c').imp_right fun hmem => subset_texts_setBase c text s c' hmem

theorem kept_given : Kept True Given := by
  refine Kept.of_moves (fun s channel ch h _ => ?_) (fun _ _ _ h hchecked => h.check hchecked)
    (fun _ _ _ h => ⟨h.base, h.endpoint, h.connections⟩) fun s e h hparse => ?_
  · unfold moveBase
    split
    · exact h
    · exact h.setBase _ _
  · refine ⟨h.base, fun channel => ?_, h.connections⟩
    by_cases hc : channel = .prvHst
    · subst hc
      dsimp only
      rw [Function.update_self]
      exact Or.inr (h.fromText hparse)
    · dsimp only
      rw [Function.update_of_ne hc]
      exact h.endpoint channel

theorem Given.step {event : Event} (h : Given s) (hstep : step s event = some s') : Given s' := by
  cases event with
  | writeBase c value statDir =>
    obtain rfl := Option.some.inj hstep
    unfold writeBase
    rw [checkPathOf_eq]
    exact (h.setBase c (octetValue value)).check (checked_checkBase statDir c _)
  | writeBPCFilePath value statDir =>
    obtain rfl := Option.some.inj hstep
    exact ⟨h.base, h.endpoint, h.connections⟩
  | writeDACSFilePath value statDir =>
    obtain rfl := Option.some.inj hstep
    exact ⟨h.base, h.endpoint, h.connections⟩
  | set setting value =>
    obtain rfl := Option.some.inj hstep
    cases setting <;> exact ⟨h.base, h.endpoint, h.connections⟩
  | acquireStart r =>
    obtain rfl := Option.some.inj hstep
    exact kept_given.acquireStart h r (Or.inl trivial)
  | acquireStop =>
    obtain rfl := Option.some.inj hstep
    exact kept_given.stopWorkers h _
  | connect channel =>
    obtain rfl := step_connect hstep
    unfold Endpoints.connect
    dsimp only
    split
    case isTrue => exact h
    case isFalse hne =>
      refine ⟨h.base, h.endpoint, fun x hx => ?_⟩
      rcases List.mem_cons.mp hx with rfl | hx
      · rcases h.endpoint channel with hinit | hfrom
        · exact absurd (Or.inl (by rw [hinit])) hne
        · exact hfrom
      · exact h.connections x hx
  | closed channel =>
    obtain rfl := step_closed hstep
    exact ⟨h.base, h.endpoint, h.connections⟩

/-- In every run, whatever is written while the workers connect, a connection is made to a host and a port that come
from one text, which the base of that channel has been; and the port is one. -/
theorem connections_of_run {events : List Event} (hrun : Runs.run step System.init events = some s) :
    ∀ x ∈ s.connections, FromText s x.1 x.2 ∧ 1 ≤ x.2.port ∧ x.2.port ≤ 65535 := by
  have hgiven : Given s := by
    refine Runs.run_preserves (fun _ _ _ h hstep => h.step hstep) ?_ hrun
    refine ⟨fun c => ?_, fun _ => Or.inl rfl, fun x hx => absurd hx List.not_mem_nil⟩
    cases c <;> exact Or.inl rfl
  intro x hx
  obtain ⟨text, hmem, hparse⟩ := hgiven.connections x hx
  obtain ⟨-, hpos, hle⟩ := parseTcpPath_spec hparse
  exact ⟨⟨text, hmem, hparse⟩, hpos, hle⟩

theorem connections_of_run_preview :
    ∃ s, Runs.run step System.init previewRun = some s ∧ s.connections = [(.prvImg, ⟨"localhost".toList, 8089⟩)] ∧
      ∀ x ∈ s.connections, FromText s x.1 x.2 ∧ 1 ≤ x.2.port ∧ x.2.port ≤ 65535 := by
  have hsome : ∃ s, Runs.run step System.init previewRun = some s ∧
      s.connections = [(.prvImg, ⟨"localhost".toList, 8089⟩)] := ⟨_, rfl, rfl⟩
  obtain ⟨s, hs, hconnections⟩ := hsome
  exact ⟨s, hs, hconnections, connections_of_run hs⟩

/-! ## Endpoints that are up to date -/

/-- The endpoints that a check of the path sets are those of the paths. -/
def AllCurrent (s : System) : Prop := ∀ channel ≠ .prvHst, Current s channel

/-- A channel that is moved is enabled, and brought up to date afterwards. -/
theorem current_or_enabled (h : AllCurrent s) (isTcpPortInUse : List Char → ℕ → Bool) (forceRotate : Bool) :
    ∀ channel ≠ .prvHst,
      Current (setBases (ensurePreviewTcpPortsFree isTcpPortInUse forceRotate (previewTcpChannels s)).1 s) channel ∨
        (setBases (ensurePreviewTcpPortsFree isTcpPortInUse forceRotate
          (previewTcpChannels s)).1 s).write channel ≠ 0 := by
  refine setBases_inv (fun s => ∀ channel ≠ .prvHst, Current s channel ∨ s.write channel ≠ 0) ?_
    (fun channel hne => Or.inl (h channel hne)) isTcpPortInUse forceRotate
  intro s channel ch hs hmoved channel' hne
  by_cases hc : channel' = channel
  · subst hc
    unfold moveBase
    split
    case isTrue => exact hs channel' hne
    case isFalse hchanged => exact Or.inr (hmoved.parse hchanged).1
  · have hpath : pathOf channel' ≠ pathOf channel := fun heq => hc (pathOf_injective heq)
    unfold moveBase
    split
    case isTrue => exact hs channel' hne
    case isFalse =>
      refine (hs channel' hne).imp_left fun hcurrent e he => ?_
      rw [path_setBase_ne hpath] at he
      exact hcurrent e he

theorem kept_allCurrent : Kept False AllCurrent where
  ensure s isTcpPortInUse forceRotate statDir h hfinds := by
    have hor := current_or_enabled h isTcpPortInUse forceRotate
    have hsome := hfinds.resolve_left id
    unfold ensurePortsFree at hsome ⊢
    dsimp only at hsome ⊢
    split
    case isTrue herror =>
      rw [if_pos herror] at hsome
      cases hsome
    case isFalse =>
      have hchecked := checked_sync statDir
        (setBases (ensurePreviewTcpPortsFree isTcpPortInUse forceRotate (previewTcpChannels s)).1 s)
      intro channel hne
      rcases hor channel hne with hcurrent | hwrite
      · exact hchecked.keeps hcurrent
      · exact hchecked.current channel ⟨hne, hwrite⟩
  sync s statDir h channel hne := (checked_sync statDir s).keeps (h channel hne)
  workers _ _ _ h := h
  hst s e h _ := by
    intro channel hne e' he'
    dsimp only
    rw [Function.update_of_ne hne]
    exact h channel hne e' he'

theorem AllCurrent.step {event : Event} (h : AllCurrent s) (hfinds : FindsPorts s event)
    (hstep : step s event = some s') : AllCurrent s' := by
  cases event with
  | writeBase c value statDir =>
    obtain rfl := Option.some.inj hstep
    have hchecked := checked_checkBase statDir c (setBase c (octetValue value) s)
    rw [← checkPathOf_eq] at hchecked
    intro channel hne
    by_cases hc : pathOf channel = c
    · refine hchecked.current channel ?_
      cases channel with
      | prvHst => exact absurd rfl hne
      | _ => subst hc; rfl
    · refine hchecked.keeps fun e he => ?_
      rw [path_setBase_ne hc] at he
      exact h channel hne e he
  | writeBPCFilePath value statDir =>
    obtain rfl := Option.some.inj hstep
    exact h
  | writeDACSFilePath value statDir =>
    obtain rfl := Option.some.inj hstep
    exact h
  | set setting value =>
    obtain rfl := Option.some.inj hstep
    cases setting <;> exact h
  | acquireStart r =>
    obtain rfl := Option.some.inj hstep
    exact kept_allCurrent.acquireStart h r (Or.inr hfinds)
  | acquireStop =>
    obtain rfl := Option.some.inj hstep
    exact kept_allCurrent.stopWorkers h _
  | connect channel =>
    obtain rfl := step_connect hstep
    unfold Endpoints.connect
    dsimp only
    split <;> exact h
  | closed channel =>
    obtain rfl := step_closed hstep
    exact h

/-- As long as ports are found for the channels that are moved, the endpoints of PrvImg, PrvImg1 and Img are those of
their paths after every operation of the client, and a worker connects there. -/
theorem current_of_run {events : List Event} (hfinds : Runs.Guarded step FindsPorts System.init events)
    (hrun : Runs.run step System.init events = some s) :
    ∀ channel ≠ .prvHst, ∀ e ∈ parseTcpPath (s.path (pathOf channel)).base, s.endpoint channel = e := by
  refine Runs.run_invariant (fun _ _ _ h hguard hstep => AllCurrent.step h hguard hstep) ?_ hfinds hrun
  intro channel hne e he
  cases channel <;> cases he

theorem findsPorts_previewRun : Runs.Guarded step FindsPorts System.init previewRun := by
  refine ⟨trivial, fun s₁ hs₁ => ⟨trivial, fun s₂ hs₂ => ⟨⟨?_, fun hused => by cases hused⟩, fun s₃ hs₃ =>
    ⟨trivial, fun s₄ hs₄ => trivial⟩⟩⟩⟩
  obtain rfl := Option.some.inj hs₁
  obtain rfl := Option.some.inj hs₂
  rfl

theorem current_of_run_preview :
    ∃ s, Runs.run step System.init previewRun = some s ∧
      ∀ channel ≠ .prvHst, ∀ e ∈ parseTcpPath (s.path (pathOf channel)).base, s.endpoint channel = e := by
  have hsome : ∃ s, Runs.run step System.init previewRun = some s := ⟨_, rfl⟩
  obtain ⟨s, hs⟩ := hsome
  exact ⟨s, hs, current_of_run findsPorts_previewRun hs⟩

/-! ## The workers of a start -/

theorem previewChannel_checked {checked : Channel → Prop} (h : Checked checked s s') (channel : Channel) :
    previewChannel s' channel = previewChannel s channel := by
  unfold previewChannel
  rw [h.base, h.rest]

theorem toList_sync (statDir : List Char → Bool) (s : System) :
    (previewTcpChannels (syncTcpStreamEndpoints statDir s)).toList = (previewTcpChannels s).toList := by
  rw [toList_previewTcpChannels, toList_previewTcpChannels]
  exact List.map_congr_left fun channel _ => previewChannel_checked (checked_sync statDir s) channel

/-- Neither moves nor checks of paths touch the workers. -/
theorem ensurePortsFree_workers (isTcpPortInUse : List Char → ℕ → Bool) (forceRotate : Bool)
    (statDir : List Char → Bool) (s : System) :
    (ensurePortsFree isTcpPortInUse forceRotate statDir s).1.running = s.running ∧
      (ensurePortsFree isTcpPortInUse forceRotate statDir s).1.workerThreadId = s.workerThreadId := by
  have hset : (setBases (ensurePreviewTcpPortsFree isTcpPortInUse forceRotate (previewTcpChannels s)).1 s).running =
        s.running ∧
      (setBases (ensurePreviewTcpPortsFree isTcpPortInUse forceRotate (previewTcpChannels s)).1 s).workerThreadId =
        s.workerThreadId := by
    refine setBases_inv (fun s' => s'.running = s.running ∧ s'.workerThreadId = s.workerThreadId) ?_ ⟨rfl, rfl⟩
      isTcpPortInUse forceRotate
    intro s' channel ch hs' _
    rw [moveBase_rest]
    exact hs'
  unfold ensurePortsFree
  dsimp only
  split
  · exact hset
  · rw [(checked_sync statDir _).rest]
    exact hset

/-- The ports are apart where all of them are moved. -/
theorem nodup_ports_of_rotated (isTcpPortInUse : List Char → ℕ → Bool) (statDir : List Char → Bool)
    (h : (ensurePortsFree isTcpPortInUse true statDir s).2.isSome) :
    (ports (previewTcpChannels (ensurePortsFree isTcpPortInUse true statDir s).1).toList).Nodup := by
  unfold ensurePortsFree at h ⊢
  dsimp only at h ⊢
  split at h
  case isTrue => cases h
  case isFalse hdone =>
    have hnone : (ensurePreviewTcpPortsFree isTcpPortInUse true (previewTcpChannels s)).2 = none := by
      simpa using hdone
    have hchannels : (previewTcpChannels
        (setBases (ensurePreviewTcpPortsFree isTcpPortInUse true (previewTcpChannels s)).1 s)).toList =
        (ensurePreviewTcpPortsFree isTcpPortInUse true (previewTcpChannels s)).1 :=
      map_foldl_moveBase nodup_channels (moved_ensureChannels isTcpPortInUse true [] _)
    rw [if_neg hdone, toList_sync, hchannels]
    exact (ensureChannels_rotated hnone).1

/-- A worker that is not there is started. -/
theorem running_startWorker (hidle : s.running channel = false ∧ s.workerThreadId channel = false) :
    startWorker channel s =
      { s with
        running := Function.update s.running channel true
        workerThreadId := Function.update s.workerThreadId channel true } := by
  unfold startWorker
  rw [hidle.1, hidle.2]
  rfl

/-- Starting a worker, or not, changes the two flags of its channel only. -/
theorem startWorker_rest (s : System) (channel : Channel) :
    startWorker channel s =
        { s with
          running := (startWorker channel s).running
          workerThreadId := (startWorker channel s).workerThreadId } ∧
      ∀ channel' ≠ channel, (startWorker channel s).running channel' = s.running channel' ∧
        (startWorker channel s).workerThreadId channel' = s.workerThreadId channel' := by
  unfold startWorker
  split
  · refine ⟨rfl, fun channel' hne => ?_⟩
    dsimp only
    rw [Function.update_of_ne hne, Function.update_of_ne hne]
    exact ⟨rfl, rfl⟩
  · exact ⟨rfl, fun _ _ => ⟨rfl, rfl⟩⟩

/-- What the start of one worker leaves: the flags of the others, and all that is no flag. -/
structure Others (channel : Channel) (s s' : System) : Prop where
  rest : s' = { s with running := s'.running, workerThreadId := s'.workerThreadId }
  flags : ∀ channel' ≠ channel, s'.running channel' = s.running channel' ∧
    s'.workerThreadId channel' = s.workerThreadId channel'

theorem others_ite (s : System) (channel : Channel) (P : Prop) [Decidable P]
    (hidle : s.running channel = false ∧ s.workerThreadId channel = false) :
    Others channel s (if P then startWorker channel s else s) ∧
      ((if P then startWorker channel s else s).running channel = true ↔ P) := by
  split
  case isTrue hP =>
    obtain ⟨hrest, hflags⟩ := startWorker_rest s channel
    refine ⟨⟨hrest, hflags⟩, iff_of_true ?_ hP⟩
    rw [running_startWorker hidle]
    exact Function.update_self ..
  case isFalse hP => exact ⟨⟨rfl, fun _ _ => ⟨rfl, rfl⟩⟩, iff_of_false (by rw [hidle.1]; exact Bool.false_ne_true) hP⟩

theorem Others.wanted_iff (h : Others channel s s') (channel' : Channel) : wanted s' channel' ↔ wanted s channel' := by
  unfold wanted
  rw [h.rest]

/-- The histogram worker is started at the endpoint of its path. -/
theorem startPrvHst_spec (s : System) :
    (∀ channel ≠ .prvHst, (startPrvHst s).running channel = s.running channel ∧
        (startPrvHst s).endpoint channel = s.endpoint channel) ∧
      startPrvHst s = { s with
        endpoint := (startPrvHst s).endpoint
        running := (startPrvHst s).running
        workerThreadId := (startPrvHst s).workerThreadId } ∧
      (wanted s .prvHst ∧ s.prvHstFormat = 4 ∧ s.prvHstAccumulationEnable ≠ 0 → Current (startPrvHst s) .prvHst) := by
  unfold startPrvHst
  split
  case isFalse hno => exact ⟨fun _ _ => ⟨rfl, rfl⟩, rfl, fun hyes => absurd hyes hno⟩
  case isTrue =>
    cases hparse : parseTcpPath (s.path .prvHst).base with
    | none =>
      refine ⟨fun _ _ => ⟨rfl, rfl⟩, rfl, fun _ e he => ?_⟩
      rw [show (s.path (pathOf .prvHst)).base = (s.path .prvHst).base from rfl, hparse] at he
      cases he
    | some e =>
      dsimp only
      obtain ⟨hrest, hflags⟩ := startWorker_rest { s with endpoint := Function.update s.endpoint .prvHst e } .prvHst
      refine ⟨fun channel hne => ⟨(hflags channel hne).1, ?_⟩, ?_, fun _ e' he' => ?_⟩
      · rw [hrest]
        exact Function.update_of_ne hne ..
      · rw [hrest]
      · rw [hrest] at he' ⊢
        have hparse' : parseTcpPath (s.path .prvHst).base = some e' := he'
        dsimp only
        rw [Function.update_self]
        exact Option.some.inj (hparse.symm.trans hparse')

/-- No worker of PrvImg, PrvImg1 or Img is there. -/
def Idle (s : System) : Prop := ∀ channel ≠ .prvHst, s.running channel = false ∧ s.workerThreadId channel = false

theorem startedAtPaths_startWorkers (hidle : Idle s) (statDir : List Char → Bool) :
    StartedAtPaths (startWorkers statDir s) ∧
      (previewTcpChannels (startWorkers statDir s)).toList = (previewTcpChannels s).toList := by
  have hsync := checked_sync statDir s
  set s₀ := syncTcpStreamEndpoints statDir s with hs₀
  have hidle₀ : Idle s₀ := by
    rw [Idle, hsync.rest]
    exact hidle
  obtain ⟨hothers₁, hrunning₁⟩ := others_ite s₀ .prvImg (wanted s₀ .prvImg) (hidle₀ _ (by decide))
  set s₁ := if wanted s₀ .prvImg then startWorker .prvImg s₀ else s₀ with hs₁
  have hflags₁ := hothers₁.flags
  obtain ⟨hothers₂, hrunning₂⟩ := others_ite s₁ .prvImg1 (wanted s₁ .prvImg1) (by
    rw [(hflags₁ .prvImg1 (by decide)).1, (hflags₁ .prvImg1 (by decide)).2]
    exact hidle₀ _ (by decide))
  set s₂ := if wanted s₁ .prvImg1 then startWorker .prvImg1 s₁ else s₁ with hs₂
  have hflags₂ := hothers₂.flags
  obtain ⟨hothers₃, hrunning₃⟩ := others_ite s₂ .img (wanted s₂ .img ∧ s₂.imgAccumulationEnable ≠ 0) (by
    rw [(hflags₂ .img (by decide)).1, (hflags₂ .img (by decide)).2, (hflags₁ .img (by decide)).1,
      (hflags₁ .img (by decide)).2]
    exact hidle₀ _ (by decide))
  set s₃ := if wanted s₂ .img ∧ s₂.imgAccumulationEnable ≠ 0 then startWorker .img s₂ else s₂ with hs₃
  have hflags₃ := hothers₃.flags
  obtain ⟨hflags, hrest, hhst⟩ := startPrvHst_spec s₃
  have hstart : startWorkers statDir s = startPrvHst s₃ := rfl
  -- nothing but flags and the endpoint of the histogram has changed since the check
  have hrest₃ : s₃ = { s₀ with running := s₃.running, workerThreadId := s₃.workerThreadId } := by
    rw [hothers₃.rest, hothers₂.rest, hothers₁.rest]
  have hwanted : ∀ channel, wanted (startPrvHst s₃) channel ↔ wanted s₀ channel := by
    intro channel
    rw [hrest, hrest₃]
    exact Iff.rfl
  have himg : (startPrvHst s₃).imgAccumulationEnable = s₀.imgAccumulationEnable := by rw [hrest, hrest₃]
  have hrunning : ∀ channel ≠ .prvHst, (startPrvHst s₃).running channel = true ↔
      wanted s₀ channel ∧ (channel = .img → s₀.imgAccumulationEnable ≠ 0) := by
    intro channel hne
    rw [(hflags channel hne).1]
    cases channel with
    | prvImg =>
      rw [(hflags₃ .prvImg (by decide)).1, (hflags₂ .prvImg (by decide)).1, hrunning₁]
      simp
    | prvImg1 =>
      rw [(hflags₃ .prvImg1 (by decide)).1, hrunning₂, hothers₁.wanted_iff]
      simp
    | img =>
      have himg₂ : s₂.imgAccumulationEnable = s₀.imgAccumulationEnable := by rw [hothers₂.rest, hothers₁.rest]
      rw [hrunning₃, hothers₂.wanted_iff, hothers₁.wanted_iff, himg₂]
      simp
    | prvHst => exact absurd rfl hne
  rw [hstart]
  refine ⟨⟨fun channel hne => ?_, fun channel hne hrun => ?_, fun hw hformat haccumulation => ?_⟩, ?_⟩
  · rw [hrunning channel hne, hwanted, himg]
  · obtain ⟨⟨hwrite, -⟩, -⟩ := (hrunning channel hne).mp hrun
    have hwrite' : s.write channel ≠ 0 := by
      rw [hsync.rest] at hwrite
      exact hwrite
    intro e he
    rw [hrest, hrest₃] at he
    rw [(hflags channel hne).2, hrest₃]
    exact hsync.current channel ⟨hne, hwrite'⟩ e he
  · refine hhst ⟨?_, ?_, ?_⟩
    · rw [hrest] at hw
      exact hw
    · rw [hrest] at hformat
      exact hformat
    · rw [hrest] at haccumulation
      exact haccumulation
  · rw [← toList_sync statDir s, hrest, hrest₃]
    rfl

/-- A start that has been answered has started the workers, after the ports were seen to. -/
theorem acquireStart_started (r : StartReplies) (h : (acquireStart r s).2 = true) :
    ∃ s₁, Idle s₁ ∧ (acquireStart r s).1 = startWorkers r.statDir s₁ ∧
      (r.start = .addressInUse → (ports (previewTcpChannels s₁).toList).Nodup) := by
  have hidle : Idle (stopWorkers [.prvImg, .prvImg1, .img] s) := by
    intro channel hne
    cases channel with
    | prvHst => exact absurd rfl hne
    | _ => exact ⟨Bool.and_false _, Bool.and_false _⟩
  have hensured : ∀ s₀ isTcpPortInUse forceRotate, Idle s₀ →
      Idle (ensurePortsFree isTcpPortInUse forceRotate r.statDir s₀).1 := by
    intro s₀ isTcpPortInUse forceRotate hs₀
    obtain ⟨hrunning, hthread⟩ := ensurePortsFree_workers isTcpPortInUse forceRotate r.statDir s₀
    rw [Idle, hrunning, hthread]
    exact hs₀
  have hidle₁ := hensured _ r.isTcpPortInUse false hidle
  unfold acquireStart at h ⊢
  dsimp only at h ⊢
  split at h
  case isTrue => cases h
  case isFalse hconflict =>
    rw [if_neg hconflict]
    cases hfirst : ensurePortsFree r.isTcpPortInUse false r.statDir (stopWorkers [.prvImg, .prvImg1, .img] s) with
    | mk s₁ result =>
      rw [hfirst] at h hidle₁
      cases result with
      | none => cases h
      | some changed =>
        dsimp only at h ⊢
        split at h
        case isTrue => cases h
        case isFalse hwriter =>
          rw [if_neg hwriter]
          cases hstart : r.start with
          | started => exact ⟨s₁, hidle₁, rfl, fun hused => by cases hused⟩
          | failed =>
            rw [hstart] at h
            cases h
          | addressInUse =>
            rw [hstart] at h
            have hidle₂ := hensured s₁ r.isTcpPortInUse₂ true hidle₁
            have hnodup := nodup_ports_of_rotated (s := s₁) r.isTcpPortInUse₂ r.statDir
            dsimp only at h ⊢
            unfold retryStart at h ⊢
            cases hsecond : ensurePortsFree r.isTcpPortInUse₂ true r.statDir s₁ with
            | mk s₂ result₂ =>
              rw [hsecond] at h hidle₂ hnodup
              cases result₂ with
              | none => cases h
              | some changed₂ =>
                dsimp only at h ⊢
                split at h
                case isTrue hretry =>
                  rw [if_pos hretry]
                  exact ⟨s₂, hidle₂, rfl, fun _ => hnodup rfl⟩
                case isFalse => cases h

/-- After a start that is answered, in whatever state it was called, the workers of PrvImg, PrvImg1 and Img run exactly
where they are enabled, at the endpoints of their paths; and after a second try all ports are different. -/
theorem workers_at_their_paths (s : System) (r : StartReplies) (h : (acquireStart r s).2 = true) :
    StartedAtPaths (acquireStart r s).1 ∧
      (r.start = .addressInUse → (ports (previewTcpChannels (acquireStart r s).1).toList).Nodup) := by
  obtain ⟨s₁, hidle, heq, hnodup⟩ := acquireStart_started r h
  obtain ⟨hstarted, hchannels⟩ := startedAtPaths_startWorkers hidle r.statDir
  rw [heq]
  refine ⟨hstarted, fun hused => ?_⟩
  rw [hchannels]
  exact hnodup hused

/-- The preview with its path, before the start. -/
def previewEnabled : System :=
  writeBase (fun _ => false) .prvImg previewPath (setValue .init 1 (.write .prvImg))

/-- The server finds the port in use, and another one is tried. -/
def tried : StartReplies := { answered with start := .addressInUse }

theorem workers_at_their_paths_preview :
    (acquireStart tried previewEnabled).2 = true ∧ StartedAtPaths (acquireStart tried previewEnabled).1 ∧
      (tried.start = .addressInUse →
        (ports (previewTcpChannels (acquireStart tried previewEnabled).1).toList).Nodup) := by
  have hstarted : (acquireStart tried previewEnabled).2 = true := by decide +kernel
  exact ⟨hstarted, workers_at_their_paths previewEnabled tried hstarted⟩

end ADTimePix3.Acquire.Endpoints
