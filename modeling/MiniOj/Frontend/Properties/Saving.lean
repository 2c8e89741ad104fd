import MiniOj.Frontend.Properties.AdminEdit
import MiniOj.Http.Properties.Listing
import MiniOj.Http.Properties.Numbers

/-!
# Saving a problem without editing it

The form cannot hold every problem that the server accepts: it cuts blanks off the title and the
tags, takes every comma for a separator of tags, and asks for a description.

* `Survives` — what the form can hold
* `sound_of_stored` — what an accepted problem is like
* `saved_untouched_iff` — a problem is saved and stays as it is exactly when it survives the form
-/

namespace MiniOj.Frontend.AdminEdit

open Infra Db Admin Http

variable {m : Mysql} {w w' : World} {problemId : Nat} {d d' : AdminProblemDetail}
  {input : ProblemInput} {weight : Bytes → Bytes}

/-! ## Statements -/

/-- What a problem consists of is the same, whatever ids its testcases have. -/
structure Same (d d' : AdminProblemDetail) : Prop where
  title : d'.title = d.title
  descriptionMd : d'.descriptionMd = d.descriptionMd
  difficulty : d'.difficulty = d.difficulty
  timeLimitMs : d'.timeLimitMs = d.timeLimitMs
  memoryLimitMb : d'.memoryLimitMb = d.memoryLimitMb
  tags : d'.tags.Perm d.tags
  testcases : d'.testcases.map caseInput = d.testcases.map caseInput

/-- The untouched form is accepted, and the problem is as it was. -/
def Unchanged (m : Mysql) (w : World) (problemId : Nat) (d : AdminProblemDetail) : Prop :=
  ∃ w' d', (saveUntouched problemId).run m.exec w = (.ok .saved, w') ∧
    w'.bank.detail m.weight problemId = some d' ∧ Same d d'

/-- The form can hold the problem: the title has no blanks around it, the description is not
blank, and the names of the tags are, up to the collation, the parts between their commas. -/
structure Survives (weight : Bytes → Bytes) (d : AdminProblemDetail) : Prop where
  title : JsString.trim (decode d.title) = decode d.title
  descriptionMd : JsString.trim (decode d.descriptionMd) ≠ []
  tags : ((d.tags.flatMap fun t => parseTags (decode t.name)).map fun part =>
    weight (encode part)).Perm (d.tags.map fun t => weight t.name)

/-- A database on which no call fails, with the problem in it and ids left to save it again. -/
structure Opened (m : Mysql) (w : World) (problemId : Nat) (d : AdminProblemDetail) : Prop where
  fails : ∀ n, m.fails n = none
  work : w.work = none
  schema : Schema m.weight ⟨w.bank, w.next⟩
  names : Named w.bank
  detail : w.bank.detail m.weight problemId = some d
  roomTags : w.next.tags + d.tags.length ≤ maxUnsigned + 1
  roomTestcases : w.next.testcases + d.testcases.length ≤ maxUnsigned + 1

/-! ## What has been stored -/

/-- The tags of a problem are rows of the table. -/
theorem mem_tags (h : w.bank.detail weight problemId = some d) {t : Tag} (ht : t ∈ d.tags) :
    ⟨t.id, t.name⟩ ∈ w.bank.tags := by
  obtain ⟨p, -, rfl⟩ := Option.map_eq_some_iff.mp h
  obtain ⟨row, hrow, rfl⟩ := List.mem_map.mp ht
  exact (mem_linkedTags.mp ((perm_tagsOf w.bank p.id).mem_iff.mp hrow)).1

theorem nodup_tags (hs : Schema weight ⟨w.bank, w.next⟩)
    (h : w.bank.detail weight problemId = some d) : (d.tags.map fun t => weight t.name).Nodup := by
  obtain ⟨p, -, rfl⟩ := Option.map_eq_some_iff.mp h
  show (((w.bank.tagsOf weight p.id).map fun t => (⟨t.id, t.name⟩ : Tag)).map _).Nodup
  rw [List.map_map]
  exact ((perm_tagsOf w.bank p.id).map _).nodup_iff.mpr (hs.nodup_linkedNames p.id)

theorem testcases_of_parse {body : Json} (h : parseProblemInput body = .ok input) :
    input.testcases ≠ [] ∧ input.testcases.length ≤ 1000 := by
  obtain ⟨-, -, -, -, hcases⟩ := parseProblemInput_ok h
  have hlength := (forall₂_of_mapM (parseTestcases_ok hcases)).length_eq
  unfold parseTestcases at hcases
  split at hcases
  · cases hcases
  · next items hitems =>
    obtain ⟨hempty, hcases⟩ := ok_of_check hcases
    obtain ⟨hmany, -⟩ := ok_of_check hcases
    rw [hitems] at hlength
    have hsame : items.length = input.testcases.length := hlength
    rw [List.isEmpty_iff] at hempty
    refine ⟨fun hnil => hempty ?_, by omega⟩
    rw [hnil] at hsame
    exact List.length_eq_zero_iff.mp hsame
  · cases hcases

theorem parseTag_ne_nil {tag : Json} {name : Bytes} (h : Admin.parseTag tag = .ok name) :
    name ≠ [] := by
  unfold Admin.parseTag at h
  split at h
  · cases h
    exact List.cons_ne_nil _ _
  · cases h

theorem tags_of_parse {body : Json} (h : parseProblemInput body = .ok input) :
    ∀ name ∈ input.tags, name ≠ [] := by
  obtain ⟨-, -, -, htags, -⟩ := parseProblemInput_ok h
  unfold Admin.parseTags at htags
  split at htags
  · rw [← Except.ok.inj htags]
    exact fun _ h => nomatch h
  · have hall := forall₂_of_mapM htags
    intro name hname
    obtain ⟨i, hi, rfl⟩ := List.getElem_of_mem hname
    have hlength := hall.length_eq
    exact parseTag_ne_nil (hall.get (by omega) hi)
  · cases htags

/-- Requests give tags no other names than `Opened` asks for. -/
theorem named_of_request {body : Json} (hparse : parseProblemInput body = .ok input)
    (hw : w.work = none) (h : Named w.bank) :
    (∀ problemId w', (createProblem input).run m.exec w = (.ok problemId, w') → Named w'.bank) ∧
      ∀ problemId changed w',
        (updateProblem problemId input).run m.exec w = (.ok changed, w') → Named w'.bank :=
  ⟨fun _ _ => named_createProblem hw h (tags_of_parse hparse),
    fun _ _ _ => named_updateProblem hw h (tags_of_parse hparse)⟩

/-- **What an accepted problem is like** once it is stored. -/
theorem sound_of_stored {body : Json} {b : Bank} (hparse : parseProblemInput body = .ok input)
    (hreturned : Returned fitVarchar fitText weight b problemId input d)
    (hnames : ∀ t ∈ d.tags, t.name ≠ [] ∧ fitVarchar 64 t.name = some t.name) : Sound d := by
  have hchecked := checked_of_parseProblemInput hparse
  obtain ⟨hne, hmany⟩ := testcases_of_parse hparse
  have htitle : input.title = d.title := Store.fitVarchar_short
    (fun n hn => (utf8Length_le hn).trans hchecked.title_length) hreturned.title
  have hlength := hreturned.testcases.length_eq
  refine {
    title_ne := htitle ▸ hchecked.title_ne
    title_length := htitle ▸ hchecked.title_length
    title := htitle ▸ utf8Length_of_fitVarchar hreturned.title
    descriptionMd := fitText_fitText hreturned.descriptionMd
    timeLimitMs := hreturned.timeLimitMs ▸ hchecked.timeLimitMs
    memoryLimitMb := hreturned.memoryLimitMb ▸ hchecked.memoryLimitMb
    tags := hnames
    testcases_ne := ?_
    testcases_length := hlength ▸ hmany
    testcases := ?_ }
  · intro hnil
    rw [hnil, List.length_nil] at hlength
    exact hne (List.length_eq_zero_iff.mp hlength)
  · intro c hc
    obtain ⟨i, hi, rfl⟩ := List.getElem_of_mem hc
    obtain ⟨hinput, houtput, -, -⟩ := hreturned.testcases.get (by omega) hi
    exact ⟨fitText_fitText hinput, fitText_fitText houtput⟩

/-! ## Loading and saving -/

/-- The problem is read and the database is as before. -/
theorem run_saveUntouched (h : Opened m w problemId d) : ∃ w₁, w.Same w₁ ∧
    (saveUntouched problemId).run m.exec w = (saveLoaded problemId d).run m.exec w₁ := by
  have hview : w.view = w.bank := view_of_none h.work
  obtain ⟨hsame, ⟨r, hr, hdetail⟩ | ⟨-, n, -, -, hn⟩⟩ := reports_getFullProblem (m := m) problemId w
  · rw [hview, h.detail] at hdetail
    subst hdetail
    refine ⟨_, hsame, ?_⟩
    unfold saveUntouched
    rw [Program.run_bind]
    cases hrun : (getFullProblem problemId).run m.exec w with
    | mk r w₁ =>
      rw [hrun] at hr
      cases hr
      rfl
  · exact absurd (h.fails n) hn

theorem Opened.schema_same (h : Opened m w problemId d) (hsame : w.Same w') :
    Schema m.weight ⟨w'.bank, w'.next⟩ := by
  rw [hsame.bank, hsame.next]
  exact h.schema

/-- The form in front of the request. -/
theorem saveLoaded_eq (h : Sound d) : saveLoaded problemId d =
    if JsString.trim (decode d.title) ≠ [] ∧ JsString.trim (decode d.descriptionMd) ≠ [] then do
      return if ← updateProblem problemId (resaved d) then .saved else .missing
    else .ret (.refused (validate (formOf d))) := by
  unfold saveLoaded
  dsimp only
  rw [loadForEdit_ofAdminDetail h]
  by_cases hform : validate (formOf d) = ""
  · have htexts := (validate_formOf h).mp hform
    rw [if_neg (not_not_intro hform), if_pos htexts, parseProblemInput_buildPayload h htexts.1]
  · rw [if_pos hform, if_neg fun htexts => hform ((validate_formOf h).mpr htexts)]

/-- The problem is saved when the form is accepted and `updateProblem` finds it. -/
theorem run_saveLoaded (h : Sound d) :
    (saveLoaded problemId d).run m.exec w = (.ok .saved, w') ↔
      (JsString.trim (decode d.title) ≠ [] ∧ JsString.trim (decode d.descriptionMd) ≠ []) ∧
        (updateProblem problemId (resaved d)).run m.exec w = (.ok true, w') := by
  rw [saveLoaded_eq h]
  by_cases htexts : JsString.trim (decode d.title) ≠ [] ∧
      JsString.trim (decode d.descriptionMd) ≠ []
  · rw [if_pos htexts, Program.run_bind, and_iff_right htexts]
    cases hrun : (updateProblem problemId (resaved d)).run m.exec w with
    | mk r w₁ =>
      cases r with
      | error e => simp
      | ok changed => cases changed <;> simp [Program.run, pure]
  · rw [if_neg htexts]
    constructor
    · intro hrun
      cases hrun
    · intro hsaved
      exact absurd hsaved.1 htexts

/-! ## What is saved -/

/-- The parts of the names fit the column. -/
theorem short_of_mem_resaved (h : Sound d) {name : Bytes} (hname : name ∈ (resaved d).tags) :
    ∃ n, utf8Length name = some n ∧ n ≤ 64 := by
  obtain ⟨part, hpart, rfl⟩ := List.mem_map.mp hname
  obtain ⟨t, ht, hmem⟩ := List.mem_flatMap.mp hpart
  obtain ⟨n, hn, hle⟩ := length_of_fitVarchar (h.tags t ht).2
  have hlength := (mem_parseTags hmem).2
  rw [← encode_decode (Option.isSome_of_eq_some hn), utf8Length_encode, Option.some.injEq] at hn
  exact ⟨List.length part, utf8Length_encode part, by omega⟩

theorem fitVarchar_resaved (h : Sound d) {name : Bytes} (hname : name ∈ (resaved d).tags) :
    fitVarchar 64 name = some name := by
  obtain ⟨n, hn, hle⟩ := short_of_mem_resaved h hname
  exact fitVarchar_of_length hn hle

theorem tagKeys_resaved (h : Sound d) : tagKeys weight (resaved d).tags =
    (d.tags.flatMap fun t => parseTags (decode t.name)).map fun part => weight (encode part) := by
  have hkeys : tagKeys weight (resaved d).tags = (resaved d).tags.map weight := by
    unfold tagKeys
    rw [← List.filterMap_eq_map]
    refine List.filterMap_congr fun name hname => ?_
    rw [fitVarchar_resaved h hname]
    rfl
  rw [hkeys, resaved, List.map_map]
  rfl

theorem Survives.resaved_title (hs : Survives weight d) (h : Sound d) :
    (resaved d).title = d.title := by
  show encode (JsString.trim (decode d.title)) = d.title
  rw [hs.title, encode_decode h.title]

theorem Survives.checked (hs : Survives weight d) (h : Sound d) : (resaved d).Checked where
  title_ne := by
    rw [hs.resaved_title h]
    exact h.title_ne
  title_length := by
    rw [hs.resaved_title h]
    exact h.title_length
  timeLimitMs := h.timeLimitMs
  memoryLimitMb := h.memoryLimitMb

theorem Survives.fits (hs : Survives m.weight d) (h : Sound d)
    (hdistinct : (d.tags.map fun t => m.weight t.name).Nodup) :
    Store.Fits m.weight (resaved d) where
  title := by
    rw [hs.resaved_title h]
    exact h.title
  descriptionMd := Option.isSome_of_eq_some h.descriptionMd
  tags name hname := Option.isSome_of_eq_some (fitVarchar_resaved h hname)
  distinct := by
    rw [tagKeys_resaved h]
    exact hs.tags.nodup_iff.mpr hdistinct
  testcases c hc := by
    obtain ⟨c, hmem, rfl⟩ := List.mem_map.mp hc
    obtain ⟨hinput, houtput⟩ := h.testcases c hmem
    exact ⟨Option.isSome_of_eq_some hinput, Option.isSome_of_eq_some houtput⟩

theorem Survives.length_tags (hs : Survives weight d) :
    (resaved d).tags.length = d.tags.length := by
  have hlength := hs.tags.length_eq
  rw [List.length_map, List.length_map] at hlength
  exact (List.length_map _).trans hlength

/-- The problem can be saved. -/
theorem Survives.saves (hs : Survives m.weight d) (h : Opened m w problemId d) (hd : Sound d)
    (hsame : w.Same w') :
    ∃ w'', (updateProblem problemId (resaved d)).run m.exec w' = (.ok true, w'') := by
  have hbank : w'.bank = w.bank := hsame.bank
  have hnext : w'.next = w.next := hsame.next
  obtain ⟨p, hp, -⟩ := Option.map_eq_some_iff.mp h.detail
  have hin : (w'.bank.problem? problemId).isSome = true := by
    rw [hbank, hp]
    rfl
  refine updateProblem_saves h.fails (hsame.work.trans h.work) hin fun n => ?_
  rw [hbank, hnext, Store.replaceProblem_isSome_iff h.schema (hs.checked hd)]
  · exact hs.fits hd (nodup_tags h.schema h.detail)
  · have hid := List.find?_some hp
    exact List.any_eq_true.mpr ⟨p, List.mem_of_find?_eq_some hp, hid⟩
  · rw [hs.length_tags]
    exact h.roomTags
  · show w.next.testcases + (d.testcases.map caseInput).length ≤ _
    rw [List.length_map]
    exact h.roomTestcases

/-! ## What is read afterwards -/

/-- The weights of the tags read are those of the parts sent. -/
theorem weights_of_returned {b : Bank} (h : Sound d)
    (hreturned : Returned fitVarchar fitText weight b problemId (resaved d) d') :
    (d'.tags.map fun t => weight t.name).Perm
      ((d.tags.flatMap fun t => parseTags (decode t.name)).map fun part =>
        weight (encode part)) := by
  obtain ⟨tags, hperm, -, hall⟩ := hreturned.tags
  have hweights :
      List.Forall₂ (fun name t => weight name = weight t.name) (resaved d).tags tags := by
    refine forall₂_imp_mem hall fun name hname t ⟨_, kept, hkept, hweight⟩ => ?_
    rw [fitVarchar_resaved h hname] at hkept
    cases hkept
    exact hweight.symm
  have hmap : (resaved d).tags.map weight = tags.map fun t => weight t.name := by
    rw [← List.forall₂_eq_eq_eq, List.forall₂_map_left_iff, List.forall₂_map_right_iff]
    exact hweights
  rw [resaved, List.map_map] at hmap
  refine (hperm.map _).trans ?_
  rw [← hmap]
  rfl

/-- Tags with the same weights are the same tags. -/
theorem perm_tags {tags : List TagRow} {l l' : List Tag}
    (hinj : (tags.map fun t => weight t.name).Nodup) (hl : ∀ t ∈ l, ⟨t.id, t.name⟩ ∈ tags)
    (hl' : ∀ t ∈ l', ⟨t.id, t.name⟩ ∈ tags) (hdistinct : (l.map fun t => weight t.name).Nodup)
    (hperm : (l'.map fun t => weight t.name).Perm (l.map fun t => weight t.name)) : l'.Perm l := by
  have heq {t u : Tag} (ht : ⟨t.id, t.name⟩ ∈ tags) (hu : ⟨u.id, u.name⟩ ∈ tags)
      (hweight : weight t.name = weight u.name) : t = u := by
    have hrow := List.inj_on_of_nodup_map hinj ht hu hweight
    cases t
    cases u
    cases hrow
    rfl
  have hsub {l l' : List Tag} (hl : ∀ t ∈ l, ⟨t.id, t.name⟩ ∈ tags)
      (hl' : ∀ t ∈ l', ⟨t.id, t.name⟩ ∈ tags)
      (hperm : (l'.map fun t => weight t.name).Perm (l.map fun t => weight t.name)) : l' ⊆ l := by
    intro t ht
    obtain ⟨u, hu, hweight⟩ := List.mem_map.mp
      (hperm.subset (List.mem_map_of_mem (f := fun t => weight t.name) ht))
    rwa [heq (hl' t ht) (hl u hu) hweight.symm]
  have hdistinct' := hperm.nodup_iff.mpr hdistinct
  refine (List.perm_ext_iff_of_nodup (hdistinct'.of_map _) (hdistinct.of_map _)).mpr fun t => ?_
  constructor
  · intro ht
    exact hsub hl hl' hperm ht
  · intro ht
    exact hsub hl' hl hperm.symm ht

/-! ## Problems that survive -/

/-- When nothing has changed, the form could hold the problem. -/
theorem Unchanged.survives (hu : Unchanged m w problemId d) (h : Opened m w problemId d)
    (hd : Sound d) : Survives m.weight d := by
  obtain ⟨w', d', hrun, hdetail, hsame⟩ := hu
  obtain ⟨w₁, hw₁, heq⟩ := run_saveUntouched h
  rw [heq, run_saveLoaded hd] at hrun
  obtain ⟨⟨-, htext⟩, hupdate⟩ := hrun
  obtain ⟨⟨⟨d'', hd'', hreturned⟩, -⟩, -, -⟩ :=
    updateProblem_kept (hw₁.work.trans h.work) (h.schema_same hw₁) hupdate
  obtain rfl : d'' = d' := Option.some.inj (hd''.symm.trans hdetail)
  have htitle : (resaved d).title = d.title := (Store.fitVarchar_short
    (fun n hn => (utf8Length_le hn).trans (length_title hd)) hreturned.title).trans hsame.title
  refine ⟨?_, htext, ?_⟩
  · have hdecode := congrArg decode htitle
    rwa [resaved, decode_encode] at hdecode
  · exact (weights_of_returned hd hreturned).symm.trans (hsame.tags.map _)

/-- What the form can hold is saved as it was. -/
theorem Survives.unchanged (hs : Survives m.weight d) (h : Opened m w problemId d) (hd : Sound d) :
    Unchanged m w problemId d := by
  obtain ⟨w₁, hw₁, heq⟩ := run_saveUntouched h
  obtain ⟨w', hupdate⟩ := hs.saves h hd hw₁
  obtain ⟨⟨⟨d', hd', hreturned⟩, -⟩, htags, hinj⟩ :=
    updateProblem_kept (hw₁.work.trans h.work) (h.schema_same hw₁) hupdate
  have hne : JsString.trim (decode d.title) ≠ [] := by
    rw [hs.title]
    exact decode_ne_nil hd.title_ne hd.title
  refine ⟨w', d', ?_, hd', ?_⟩
  · rw [heq, run_saveLoaded hd]
    exact ⟨⟨hne, hs.descriptionMd⟩, hupdate⟩
  have htitle : (resaved d).title = d'.title := Store.fitVarchar_short
    (fun n hn => (utf8Length_le hn).trans (length_title hd)) hreturned.title
  have hbank : w₁.bank.tags = w.bank.tags := congrArg Bank.tags hw₁.bank
  refine ⟨htitle.symm.trans (hs.resaved_title hd), ?_, hreturned.difficulty,
    hreturned.timeLimitMs, hreturned.memoryLimitMb, ?_, ?_⟩
  · exact Option.some.inj (hreturned.descriptionMd.symm.trans hd.descriptionMd)
  · refine perm_tags hinj (fun t ht => htags.subset ?_) (fun t ht => mem_tags hd' ht)
      (nodup_tags h.schema h.detail) ((weights_of_returned hd hreturned).trans hs.tags)
    rw [hbank]
    exact mem_tags h.detail ht
  · -- the testcases have been sent as they were read, and are kept as they were sent
    have hcases := List.forall₂_map_left_iff.mp hreturned.testcases
    have hsame :
        List.Forall₂ (fun c c' => caseInput c = caseInput c') d.testcases d'.testcases := by
      refine forall₂_imp_mem hcases fun c hc c' ⟨hinput, houtput, hsample, hscore⟩ => ?_
      obtain ⟨hinput', houtput'⟩ := hd.testcases c hc
      have hin : c.input = c'.input := Option.some.inj (hinput'.symm.trans hinput)
      have hout : c.expectedOutput = c'.expectedOutput :=
        Option.some.inj (houtput'.symm.trans houtput)
      have hsample' : c'.isSample = c.isSample := hsample
      have hscore' : c'.score = c.score := hscore
      unfold caseInput
      rw [hin, hout, hsample', hscore']
    rw [eq_comm, ← List.forall₂_eq_eq_eq, List.forall₂_map_left_iff, List.forall₂_map_right_iff]
    exact hsame

/-- It is enough that no name has a comma in it or blanks around it. -/
theorem survives_of_plain (hd : Sound d)
    (htitle : JsString.trim (decode d.title) = decode d.title)
    (htext : JsString.trim (decode d.descriptionMd) ≠ [])
    (htags : ∀ t ∈ d.tags, (∀ c ∈ decode t.name, isComma c = false) ∧
      JsString.trim (decode t.name) = decode t.name) : Survives weight d := by
  have hparts : (d.tags.flatMap fun t => parseTags (decode t.name)) =
      d.tags.map fun t => decode t.name := by
    rw [List.map_eq_flatMap]
    refine List.flatMap_congr fun t ht => ?_
    obtain ⟨hne, hfit⟩ := hd.tags t ht
    exact parseTags_plain (decode_ne_nil hne (utf8Length_of_fitVarchar hfit)) (htags t ht).1
      (htags t ht).2
  have hweights : ((d.tags.map fun t => decode t.name).map fun part => weight (encode part)) =
      d.tags.map fun t => weight t.name := by
    rw [List.map_map]
    refine List.map_congr_left fun t ht => congrArg weight ?_
    exact encode_decode (utf8Length_of_fitVarchar (hd.tags t ht).2)
  refine ⟨htitle, htext, ?_⟩
  rw [hparts, hweights]

/-- **Saving without editing** is accepted and changes nothing exactly when the form can hold the
problem. Others may have changed other problems since this one was stored. -/
theorem saved_untouched_iff (m : Mysql) (w w₁ w₂ : World) (body : Json) (input : ProblemInput)
    (problemId : Nat) (d : AdminProblemDetail) (hparse : parseProblemInput body = .ok input)
    (hwork : w.work = none) (hschema : Schema m.weight ⟨w.bank, w.next⟩)
    (hcreate : (createProblem input).run m.exec w = (.ok problemId, w₁))
    (hstored : w₁.bank.detail m.weight problemId = some d) (hopened : Opened m w₂ problemId d) :
    Unchanged m w₂ problemId d ↔ Survives m.weight d := by
  obtain ⟨⟨d', hd', hreturned⟩, -⟩ := createProblem_kept hwork hschema hcreate
  obtain rfl : d' = d := Option.some.inj (hd'.symm.trans hstored)
  have hsound : Sound d' := sound_of_stored hparse hreturned fun t ht =>
    hopened.names _ (mem_tags hopened.detail ht)
  constructor
  · intro hu
    exact hu.survives hopened hsound
  · intro hs
    exact hs.unchanged hopened hsound

/-- A request body with this tag. -/
def sumBody (tag : Bytes) : Json :=
  .object [
    (utf8 "title", .string (utf8 "A+B")), (utf8 "description_md", .string (utf8 "sum")),
    (utf8 "difficulty", .string (utf8 "easy")), (utf8 "time_limit_ms", .int 500),
    (utf8 "memory_limit_mb", .int 256), (utf8 "tags", .array [.string tag]),
    (utf8 "testcases", .array [.object [
      (utf8 "input", .string (utf8 "1 2")), (utf8 "expected_output", .string (utf8 "3"))]])]

def sumInput (tag : Bytes) : ProblemInput where
  title := utf8 "A+B"
  descriptionMd := utf8 "sum"
  tags := [tag]
  testcases := [{ input := utf8 "1 2", expectedOutput := utf8 "3" }]

/-- The problem as it is read. -/
def sumDetail (tag : Bytes) : AdminProblemDetail where
  id := 1
  title := utf8 "A+B"
  descriptionMd := utf8 "sum"
  difficulty := .easy
  timeLimitMs := 500
  memoryLimitMb := 256
  tags := [⟨1, tag⟩]
  testcases := [⟨1, 1, utf8 "1 2", utf8 "3", false, 0⟩]

/-- The problem has been stored in an empty bank. -/
def sumWorld (tag : Bytes) : World :=
  ((createProblem (sumInput tag)).run Mysql.healthy.exec (.resting .empty ⟨1, 1, 1⟩)).2

theorem opened_sum : Opened .healthy (sumWorld (utf8 "dp")) 1 (sumDetail (utf8 "dp")) where
  fails _ := rfl
  work := by decide
  schema := by constructor <;> decide
  names := by decide
  detail := by decide
  roomTags := by decide
  roomTestcases := by decide

theorem decode_utf8 {text : String} (h : utf8 text = encode text.toList) :
    decode (utf8 text) = text.toList := by
  rw [h, decode_encode]

/-- A problem with a tag without a comma stays as it is. -/
theorem saved_untouched_iff_sum :
    Unchanged .healthy (sumWorld (utf8 "dp")) 1 (sumDetail (utf8 "dp")) := by
  have hparse : parseProblemInput (sumBody (utf8 "dp")) = .ok (sumInput (utf8 "dp")) := rfl
  have hcreate : (createProblem (sumInput (utf8 "dp"))).run Mysql.healthy.exec
      (.resting .empty ⟨1, 1, 1⟩) = (.ok 1, sumWorld (utf8 "dp")) := rfl
  have hsound : Sound (sumDetail (utf8 "dp")) := by constructor <;> decide
  refine (saved_untouched_iff .healthy (.resting .empty ⟨1, 1, 1⟩) (sumWorld (utf8 "dp"))
    (sumWorld (utf8 "dp")) (sumBody (utf8 "dp")) _ 1 _ hparse rfl (schema_empty id) hcreate
    opened_sum.detail opened_sum).mpr (survives_of_plain hsound ?_ ?_ ?_)
  · show JsString.trim (decode (utf8 "A+B")) = decode (utf8 "A+B")
    rw [decode_utf8 (by decide)]
    decide
  · show JsString.trim (decode (utf8 "sum")) ≠ []
    rw [decode_utf8 (by decide)]
    decide
  · intro t ht
    rw [List.mem_singleton.mp ht]
    show (∀ c ∈ decode (utf8 "dp"), isComma c = false) ∧
      JsString.trim (decode (utf8 "dp")) = decode (utf8 "dp")
    rw [decode_utf8 (by decide)]
    have hcomma : "dp".toList.any isComma = false := by decide
    exact ⟨fun c hc => Bool.eq_false_iff.mpr (List.any_eq_false.mp hcomma c hc), by decide⟩

theorem opened_comma : Opened .healthy (sumWorld (utf8 "dp,graph")) 1
    (sumDetail (utf8 "dp,graph")) where
  fails _ := rfl
  work := by decide
  schema := by constructor <;> decide
  names := by decide
  detail := by decide
  roomTags := by decide
  roomTestcases := by decide

/-- A tag with a comma in its name comes back as two. -/
theorem splits_tag : ¬ ∀ (m : Mysql) (w w₁ w₂ : World) (body : Json) (input : ProblemInput)
    (problemId : Nat) (d : AdminProblemDetail), parseProblemInput body = .ok input →
    w.work = none → Schema m.weight ⟨w.bank, w.next⟩ →
    (createProblem input).run m.exec w = (.ok problemId, w₁) →
    w₁.bank.detail m.weight problemId = some d → Opened m w₂ problemId d →
    Unchanged m w₂ problemId d := by
  intro h
  have hparse : parseProblemInput (sumBody (utf8 "dp,graph")) = .ok (sumInput (utf8 "dp,graph")) :=
    rfl
  have hcreate : (createProblem (sumInput (utf8 "dp,graph"))).run Mysql.healthy.exec
      (.resting .empty ⟨1, 1, 1⟩) = (.ok 1, sumWorld (utf8 "dp,graph")) := rfl
  have hsound : Sound (sumDetail (utf8 "dp,graph")) := by constructor <;> decide
  have hunchanged := h .healthy (.resting .empty ⟨1, 1, 1⟩) (sumWorld (utf8 "dp,graph"))
    (sumWorld (utf8 "dp,graph")) (sumBody (utf8 "dp,graph")) _ 1 _ hparse rfl (schema_empty id)
    hcreate opened_comma.detail opened_comma
  have hlength := (hunchanged.survives opened_comma hsound).length_tags
  have hparts : (resaved (sumDetail (utf8 "dp,graph"))).tags =
      (parseTags (decode (utf8 "dp,graph"))).map encode := by
    show (List.flatMap _ [_]).map encode = _
    rw [List.flatMap_singleton]
  rw [hparts, decode_utf8 (by decide)] at hlength
  revert hlength
  decide

end MiniOj.Frontend.AdminEdit
