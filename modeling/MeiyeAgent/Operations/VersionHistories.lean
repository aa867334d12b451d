import MeiyeAgent.Machinery.SideBySide
import MeiyeAgent.Operations.ContentPackageLifecycle

/-!
# Operations/VersionHistories — versions are kept, and a rollback restores what it copies

Either call puts one version behind those of its target and moves the current version there
(`Pushed`), so the versions only grow.  Ids stay distinct because an id tells whose version it is
(`DerivedFor`).  A rollback copies a version without its note, and so restores the versions that
have none.
-/

namespace MeiyeAgent

open Effect Reading Table

/-! ## What a call should do -/

namespace ContentPackage

variable (p q : ContentPackage)

/-- Each version of the package and its variants has an id of its own. -/
def DistinctIds : Prop := (p.allVersions.map (·.id)).Nodup

instance : Decidable p.DistinctIds := inferInstanceAs (Decidable (List.Nodup _))

/-- **The version named is current again**, with all its content. -/
def Restores (versionId : String) : Prop :=
  ∃ target line, p.line target = some line ∧ ∃ version ∈ line.versions, version.id = versionId ∧
    ∃ line', q.line target = some line' ∧ ∃ current ∈ line'.versions,
      line'.currentVersionId = some current.id ∧
        current.toVersionChanges = version.toVersionChanges

end ContentPackage

/-- Whose version is named. -/
def ContentPackage.ownerOf (p : ContentPackage) (versionId : String) : Option VersionTarget :=
  if p.versions.any (·.id = versionId) then some .package
  else (p.variants.find? (·.holds versionId)).map (.variant ·.platform)

/-- Whose versions a call is about. -/
def VersionCall.target (p : ContentPackage) : VersionCall → Option VersionTarget
  | .edit input => some input.target
  | .rollback input => p.ownerOf input.targetVersionId

/-- The versions of an owner, before and after. -/
def VersionLine.Grows (line line' : VersionLine) : Prop :=
  line'.ownerId = line.ownerId ∧ line.versions <+: line'.versions

/-- **What a call does to a package**, whatever it answers. -/
structure VersionLaw (host : VersionHost) (p : ContentPackage) (call : VersionCall) : Prop where
  /-- versions are kept -/
  kept : ∀ target, Option.Rel VersionLine.Grows (p.line target) ((p.next host call).line target)
  distinct : (p.next host call).DistinctIds
  /-- a current version is one of its own -/
  current : ∀ target line, (p.next host call).line target = some line →
    ∀ id ∈ line.currentVersionId, id ∈ line.versions.map (·.id)
  /-- the target alone changes -/
  alone : ∀ target, call.target p ≠ some target →
    (p.next host call).line target = p.line target
  frame : (p.next host call).toContentPackageFrame = p.toContentPackageFrame
  /-- an edit of another version than the current one fails -/
  stale : ∀ input, call = .edit input → (∀ line, p.line input.target = some line →
    line.currentVersionId ≠ some input.baseVersionId) → ∃ e, call.answer host p = .error e
  refused : ∀ e, call.answer host p = .error e → p.next host call = p
  /-- the assets of new versions are owned, and no others become so -/
  owned : ∀ target line line', p.line target = some line →
    (p.next host call).line target = some line' → ∀ version ∈ line'.versions,
      version ∉ line.versions → ∀ asset ∈ version.orderedAssetIds,
        asset ∈ editableAssetIds p target
  assets : ∀ target asset, asset ∈ editableAssetIds (p.next host call) target ↔
    asset ∈ editableAssetIds p target
  restores : ∀ input, call = .rollback input → ∀ q id, call.answer host p = .ok (q, id) →
    p.Restores q input.targetVersionId

/-! ## The condition -/

/-- An id as a version of this owner gets it. -/
def DerivedFor (ownerId id : String) : Prop :=
  ∃ text, IsDigest text ∧ (id = ownerId ++ "-v-" ++ text ∨ id = ownerId ++ "-rollback-" ++ text)

/-- **Owners are told apart**: by their ids, and no version is named as another owner's. -/
structure ContentPackage.Apart (p : ContentPackage) : Prop where
  owners : ∀ target target' line line', p.line target = some line → p.line target' = some line' →
    line.ownerId = line'.ownerId → target = target'
  foreign : ∀ target target' line line', p.line target = some line → p.line target' = some line' →
    target ≠ target' → ∀ version ∈ line'.versions, ¬ DerivedFor line.ownerId version.id

/-- The version can be restored: it is current, or has neither a note nor an empty hook. -/
def ContentPackage.Restorable (p : ContentPackage) (versionId : String) : Prop :=
  ∀ target line, p.line target = some line → ∀ version ∈ line.versions, version.id = versionId →
    line.currentVersionId = some versionId ∨
      version.note = none ∧ version.conversionHook ≠ some ""

/-- The condition on a call: what a rollback names can be restored. -/
def VersionMet (p : ContentPackage) : VersionCall → Prop
  | .edit _ => True
  | .rollback input => p.Restorable input.targetVersionId

/-! ## Names -/

section Names

variable {ownerId ownerId' id text text' : String}

theorem append_digest_inj {a a' : String} (h : IsDigest text) (h' : IsDigest text')
    (heq : a ++ text = a' ++ text') : a = a' := by
  have hchars := congrArg String.toList heq
  rw [String.toList_append, String.toList_append] at hchars
  exact String.toList_inj.mp (List.append_inj_left' hchars (h.1.trans h'.1.symm))

/-- **An id tells whose it is.** -/
theorem DerivedFor.owner (h : DerivedFor ownerId id) (h' : DerivedFor ownerId' id) :
    ownerId = ownerId' := by
  have hmark : ∀ {a b : String}, a ++ "-v-" ≠ b ++ "-rollback-" := by
    intro a b heq
    have hchars := congrArg String.toList heq
    rw [String.toList_append, String.toList_append,
      show "-rollback-".toList = "-rollba".toList ++ "ck-".toList from rfl, ← List.append_assoc]
      at hchars
    exact absurd (List.append_inj_right' hchars rfl) (by decide)
  have hcancel : ∀ {a b mark : String}, a ++ mark = b ++ mark → a = b := by
    intro a b mark heq
    have hchars := congrArg String.toList heq
    rw [String.toList_append, String.toList_append] at hchars
    exact String.toList_inj.mp (List.append_cancel_right hchars)
  obtain ⟨text, hdigest, rfl | rfl⟩ := h
  · obtain ⟨text', hdigest', heq | heq⟩ := h'
    · exact hcancel (append_digest_inj hdigest hdigest' heq)
    · exact absurd (append_digest_inj hdigest hdigest' heq) hmark
  · obtain ⟨text', hdigest', heq | heq⟩ := h'
    · exact absurd (append_digest_inj hdigest hdigest' heq).symm hmark
    · exact hcancel (append_digest_inj hdigest hdigest' heq)

/-- The id of a version is read as it is. -/
theorem parseTrimmed_derived (howner : parseTrimmed ownerId = some ownerId)
    (h : DerivedFor ownerId id) : parseTrimmed id = some id := by
  obtain ⟨htrim, hne⟩ := parseTrimmed_eq_self.mp howner
  have hspell : ∃ text, IsDigest text ∧ ∃ mark, id = ownerId ++ mark ++ text := by
    obtain ⟨text, hdigest, heq | heq⟩ := h
    · exact ⟨text, hdigest, _, heq⟩
    · exact ⟨text, hdigest, _, heq⟩
  obtain ⟨text, ⟨hlength, hhex⟩, mark, rfl⟩ := hspell
  have howner' : ownerId.toList ≠ [] := fun hnil =>
    hne (String.toList_inj.mp (hnil.trans rfl))
  have htext : text.toList ≠ [] := fun hnil => by simp [hnil] at hlength
  rw [parseTrimmed_eq_self, Text.trim_eq_self_iff, String.toList_append, String.toList_append]
  refine ⟨⟨fun c hc => ?_, fun c hc => ?_⟩, fun hempty => ?_⟩
  · rw [List.append_assoc, List.head?_append_of_ne_nil _ howner'] at hc
    exact (Text.trim_eq_self_iff.mp htrim).1 c hc
  · rw [List.getLast?_append_of_ne_nil _ htext] at hc
    have hdigit := List.all_eq_true.mp hhex c (List.mem_of_getLast? hc)
    have hall : "0123456789abcdef".toList.all (!Text.isSpace ·) = true := by decide
    simpa using List.all_eq_true.mp hall c (List.contains_iff_mem.mp hdigit)
  · have hchars := congrArg String.toList hempty
    simp [howner'] at hchars

end Names

/-! ## What the schemas read -/

section Schemas

variable {isDatetime : String → Bool}

theorem settles_intent : Reading.Settles QuickEditIntent.parse := by
  intro intent parsed h
  simp only [QuickEditIntent.parse, Option.bind_eq_bind, Option.bind_eq_some_iff] at h
  obtain ⟨instruction, hinstruction, base, hbase, facts, hfacts, rights, hrights, h⟩ := h
  split at h
  · next hroute =>
    obtain rfl := Option.some.inj h
    simp only [QuickEditIntent.parse, settles_trimmedMost _ _ _ hinstruction,
      settles_parseTrimmed _ _ hbase, settles_parseTrimmed.list _ _ hfacts,
      settles_parseTrimmed.list _ _ hrights, Option.bind_eq_bind, Option.bind_some]
    exact if_pos hroute
  · exact nomatch h

theorem settles_delivery : Reading.Settles QuickEditExportUseDelivery.parse := by
  intro delivery parsed h
  cases delivery with
  | formatted_text exportUse fileName text =>
    simp only [QuickEditExportUseDelivery.parse, Option.bind_eq_bind, Option.bind_eq_some_iff] at h
    obtain ⟨name, hname, trimmed, htext, h⟩ := h
    split at h
    · next huse =>
      obtain rfl := Option.some.inj h
      simp only [QuickEditExportUseDelivery.parse, settles_parseTrimmed _ _ hname,
        settles_parseTrimmed _ _ htext, Option.bind_eq_bind, Option.bind_some]
      exact if_pos huse
    · exact nomatch h
  | light_composer exportUse specs packageId workId versionId =>
    simp only [QuickEditExportUseDelivery.parse, Option.bind_eq_bind, Option.bind_eq_some_iff] at h
    obtain ⟨package, hpackage, work, hwork, version, hversion, h⟩ := h
    split at h
    · next huse =>
      obtain rfl := Option.some.inj h
      simp only [QuickEditExportUseDelivery.parse, settles_parseTrimmed.option _ _ hpackage,
        settles_parseTrimmed.option _ _ hwork, settles_parseTrimmed.option _ _ hversion,
        Option.bind_eq_bind, Option.bind_some]
      exact if_pos huse
    · exact nomatch h

/-- What the schema reads of a version. -/
structure VersionRead (isDatetime : String → Bool) (version read : ContentPackageVersion) :
    Prop where
  createdBy : version.createdBy.mapM parseTrimmed = some read.createdBy
  derivedFrom : version.derivedFromVersionId.mapM parseTrimmed = some read.derivedFromVersionId
  editIntent : version.editIntent.mapM QuickEditIntent.parse = some read.editIntent
  delivery : version.exportUseDelivery.mapM QuickEditExportUseDelivery.parse =
    some read.exportUseDelivery
  id : parseTrimmed version.id = some read.id
  candidate : version.harnessCandidateId.mapM parseTrimmed = some read.harnessCandidateId
  assets : version.orderedAssetIds.mapM parseTrimmed = some read.orderedAssetIds
  reverted : version.revertedFromVersionId.mapM parseTrimmed = some read.revertedFromVersionId
  topics : version.topics.mapM parseTrimmed = some read.topics
  dated : isDatetime version.createdAt = true ∧ version.sourceRef ≠ some 0
  rest : read = { version with
    createdBy := read.createdBy, derivedFromVersionId := read.derivedFromVersionId
    editIntent := read.editIntent, exportUseDelivery := read.exportUseDelivery, id := read.id
    harnessCandidateId := read.harnessCandidateId, orderedAssetIds := read.orderedAssetIds
    revertedFromVersionId := read.revertedFromVersionId, topics := read.topics }

theorem parse_version {version read : ContentPackageVersion} :
    version.parse isDatetime = some read ↔ VersionRead isDatetime version read := by
  simp only [ContentPackageVersion.parse, Option.bind_eq_bind, Option.bind_eq_some_iff]
  constructor
  · rintro ⟨createdBy, h₁, derived, h₂, intent, h₃, delivery, h₄, id, h₅, candidate, h₆, assets, h₇,
      reverted, h₈, topics, h₉, h⟩
    split at h
    · next hdated =>
      obtain rfl := Option.some.inj h
      exact ⟨h₁, h₂, h₃, h₄, h₅, h₆, h₇, h₈, h₉, hdated, rfl⟩
    · exact nomatch h
  · intro h
    refine ⟨_, h.createdBy, _, h.derivedFrom, _, h.editIntent, _, h.delivery, _, h.id, _,
      h.candidate, _, h.assets, _, h.reverted, _, h.topics, ?_⟩
    rw [if_pos h.dated, ← h.rest]

theorem settles_version : Reading.Settles (ContentPackageVersion.parse isDatetime) := by
  intro version read h
  have h := parse_version.mp h
  have hrest := h.rest
  refine parse_version.mpr ⟨settles_parseTrimmed.option _ _ h.createdBy,
    settles_parseTrimmed.option _ _ h.derivedFrom, settles_intent.option _ _ h.editIntent,
    settles_delivery.option _ _ h.delivery, settles_parseTrimmed _ _ h.id,
    settles_parseTrimmed.option _ _ h.candidate, settles_parseTrimmed.list _ _ h.assets,
    settles_parseTrimmed.option _ _ h.reverted, settles_parseTrimmed.list _ _ h.topics, ?_, rfl⟩
  rw [hrest]
  exact h.dated

theorem parse_variant {variant read : ContentPackageVariant} :
    variant.parse isDatetime = some read ↔
      parseTrimmed variant.currentVersionId = some read.currentVersionId ∧
      parseTrimmed variant.id = some read.id ∧
      variant.versions.mapM (ContentPackageVersion.parse isDatetime) = some read.versions ∧
      read.versions ≠ [] ∧ read.platform = variant.platform := by
  simp only [ContentPackageVariant.parse, Option.bind_eq_bind, Option.bind_eq_some_iff]
  constructor
  · rintro ⟨current, hcurrent, id, hid, versions, hversions, h⟩
    split at h
    · next hne =>
      obtain rfl := Option.some.inj h
      exact ⟨hcurrent, hid, hversions, hne, rfl⟩
    · exact nomatch h
  · rintro ⟨hcurrent, hid, hversions, hne, hplatform⟩
    refine ⟨_, hcurrent, _, hid, _, hversions, ?_⟩
    rw [if_pos hne, ← hplatform]

theorem parse_package {p q : ContentPackage} :
    p.parse isDatetime = some q ↔
      p.toContentPackageFrame.parse = some q.toContentPackageFrame ∧
      p.currentVersionId.mapM parseTrimmed = some q.currentVersionId ∧
      p.versions.mapM (ContentPackageVersion.parse isDatetime) = some q.versions ∧
      p.variants.mapM (ContentPackageVariant.parse isDatetime) = some q.variants ∧
      q.updatedAt = p.updatedAt ∧ isDatetime p.updatedAt = true ∧ q.Refined := by
  simp only [ContentPackage.parse, Option.bind_eq_bind, Option.bind_eq_some_iff]
  constructor
  · rintro ⟨frame, hframe, current, hcurrent, versions, hversions, variants, hvariants, h⟩
    split at h
    · next hchecks =>
      obtain rfl := Option.some.inj h
      exact ⟨hframe, hcurrent, hversions, hvariants, rfl, hchecks.1, hchecks.2⟩
    · exact nomatch h
  · rintro ⟨hframe, hcurrent, hversions, hvariants, hupdated, hdated, hrefined⟩
    obtain ⟨frame, current, updated, versions, variants⟩ := q
    refine ⟨_, hframe, _, hcurrent, _, hversions, _, hvariants, ?_⟩
    obtain rfl : updated = p.updatedAt := hupdated
    exact if_pos ⟨hdated, hrefined⟩

theorem settles_variant : Reading.Settles (ContentPackageVariant.parse isDatetime) := by
  intro variant read h
  obtain ⟨hcurrent, hid, hversions, hne, -⟩ := parse_variant.mp h
  exact parse_variant.mpr ⟨settles_parseTrimmed _ _ hcurrent, settles_parseTrimmed _ _ hid,
    settles_version.list _ _ hversions, hne, rfl⟩

/-- What the schema has made of a package it reads as itself, where it does so with the frame. -/
theorem parse_package_self {p q : ContentPackage} (h : p.parse isDatetime = some q)
    (hframe : q.toContentPackageFrame.parse = some q.toContentPackageFrame) :
    q.parse isDatetime = some q := by
  obtain ⟨-, hcurrent, hversions, hvariants, hupdated, hdated, hrefined⟩ := parse_package.mp h
  exact parse_package.mpr ⟨hframe, settles_parseTrimmed.option _ _ hcurrent,
    settles_version.list _ _ hversions, settles_variant.list _ _ hvariants, rfl, hupdated ▸ hdated,
    hrefined⟩

end Schemas

/-! ## A version put behind the others -/

section Pushes

variable {isDatetime : String → Bool} {p q : ContentPackage} {target : VersionTarget}
  {line : VersionLine} {version read : ContentPackageVersion} {timestamp : String}
  {variant : ContentPackageVariant} {isTarget : ContentPackageVariant → Bool}

/-- **A version behind those of its target**, which it makes current. -/
structure Pushed (p : ContentPackage) (target : VersionTarget) (line : VersionLine)
    (version : ContentPackageVersion) (q : ContentPackage) : Prop where
  old : p.line target = some line
  new : q.line target = some ⟨line.ownerId, some version.id, line.versions ++ [version]⟩
  others : ∀ other, other ≠ target → q.line other = p.line other
  frame : q.toContentPackageFrame = p.toContentPackageFrame
  perm : q.allVersions.Perm (version :: p.allVersions)

theorem find?_variant (h : p.line (.variant platform) = some line) :
    ∃ variant, p.variants.find? (·.isOn platform) = some variant ∧
      line = variant.line ∧ variant.platform = platform := by
  obtain ⟨variant, hfind, hline⟩ := Option.map_eq_some_iff.mp h
  exact ⟨variant, hfind, hline.symm, by simpa using List.find?_some hfind⟩

theorem pushed_push (h : p.line target = some line) :
    Pushed p target line version (p.push target version timestamp) := by
  cases target with
  | package =>
    obtain rfl := Option.some.inj h
    refine ⟨rfl, rfl, fun other hother => ?_, rfl, ?_⟩
    · cases other with
      | package => exact absurd rfl hother
      | variant platform => rfl
    · change ((p.versions ++ [version]) ++ _).Perm _
      rw [List.append_assoc]
      exact List.perm_middle
  | variant platform =>
    obtain ⟨variant, hfind, rfl, hplatform⟩ := find?_variant h
    refine ⟨h, ?_, fun other hother => ?_, rfl, ?_⟩
    · have hfound := find?_updateFirst_self (p := ContentPackageVariant.isOn platform)
        (g := ContentPackageVariant.push version) (fun x hx => hx) p.variants
      rw [hfind, Option.map_some] at hfound
      exact congrArg (Option.map ContentPackageVariant.line) hfound
    · cases other with
      | package => rfl
      | variant other =>
        have hne : other ≠ platform := fun heq => hother (congrArg _ heq)
        have hdisjoint : ∀ x : ContentPackageVariant, x.isOn platform = true →
            x.isOn other = false := fun x hx =>
          decide_eq_false fun hother => hne (hother.symm.trans (of_decide_eq_true hx))
        exact congrArg (Option.map ContentPackageVariant.line) (find?_updateFirst_of_disjoint
          (g := ContentPackageVariant.push version) hdisjoint (fun x hx => hdisjoint x hx)
          p.variants)
    · obtain ⟨pre, post, hsplit, hupdate, -, -⟩ :=
        updateFirst_split (ContentPackageVariant.push version) hfind
      change (p.versions ++ (updateFirst _ _ p.variants).flatMap _).Perm
        (version :: (p.versions ++ p.variants.flatMap _))
      rw [hupdate, hsplit, List.flatMap_append, List.flatMap_append, List.flatMap_cons,
        List.flatMap_cons]
      simp only [ContentPackageVariant.push, List.append_assoc, List.singleton_append]
      rw [← List.append_assoc, ← List.append_assoc, ← List.append_assoc, ← List.append_assoc]
      exact List.perm_middle

theorem pushVariant_eq (hplatforms : (p.variants.map (·.platform)).Nodup)
    (h : p.variants.find? isTarget = some variant) :
    p.pushVariant isTarget version timestamp =
      p.push (.variant variant.platform) version timestamp := by
  have hmem := List.mem_of_find?_eq_some h
  have hother : p.variants.find? (·.isOn variant.platform) = some variant := by
    cases hfind : p.variants.find? (·.isOn variant.platform) with
    | none => exact absurd (List.find?_eq_none.mp hfind variant hmem) (by simp)
    | some found =>
      rw [List.inj_on_of_nodup_map hplatforms (List.mem_of_find?_eq_some hfind) hmem
        (by simpa using List.find?_some hfind)]
  rw [ContentPackage.push, ContentPackage.pushVariant, ContentPackage.pushVariant,
    updateFirst_eq_map hplatforms h, updateFirst_eq_map hplatforms hother]

/-- **What the schema makes of it**: the version is read, the rest stays. -/
theorem read_push (hread : p.parse isDatetime = some p) (hold : p.line target = some line)
    (h : (p.push target version timestamp).parse isDatetime = some q) :
    ∃ read, version.parse isDatetime = some read ∧ q = p.push target read timestamp ∧
      q.parse isDatetime = some q := by
  obtain ⟨hframe, hcurrent, hversions, hvariants, -, -, -⟩ := parse_package.mp hread
  obtain ⟨hframe', hcurrent', hversions', hvariants', hupdated, -, -⟩ := parse_package.mp h
  have hsame : q.toContentPackageFrame = p.toContentPackageFrame := by
    cases target <;> exact Option.some.inj (hframe'.symm.trans hframe)
  have hself := parse_package_self h (hsame ▸ hframe)
  obtain ⟨frame, current, updated, versions, variants⟩ := q
  cases target with
  | package =>
    obtain ⟨kept, hkept, last, hlast, hjoin⟩ := mapM_append.mp hversions'
    obtain ⟨read, hversion, rfl⟩ := mapM_singleton.mp hlast
    obtain rfl := Option.some.inj (hversions.symm.trans hkept)
    have hid : some (some read.id) = some current :=
      (congrArg (Option.map some) (parse_version.mp hversion).id).symm.trans hcurrent'
    obtain rfl := Option.some.inj hid
    obtain rfl := Option.some.inj (hvariants.symm.trans hvariants')
    obtain rfl : updated = timestamp := hupdated
    obtain rfl : frame = p.toContentPackageFrame := hsame
    obtain rfl : p.versions ++ [read] = versions := hjoin
    exact ⟨read, hversion, rfl, hself⟩
  | variant platform =>
    obtain ⟨variant, hfind, rfl, -⟩ := find?_variant hold
    obtain ⟨pre, post, hsplit, -, hrow, hfirst⟩ := updateFirst_split id hfind
    have hupdate : ∀ g, updateFirst (ContentPackageVariant.isOn platform) g p.variants =
        pre ++ g variant :: post := fun g => hsplit ▸ updateFirst_append hrow hfirst
    have hall := mapM_self.mp hvariants
    have hpre : pre.mapM (ContentPackageVariant.parse isDatetime) = some pre :=
      mapM_self.mpr fun x hx => hall x (hsplit ▸ List.mem_append_left _ hx)
    have hpost : post.mapM (ContentPackageVariant.parse isDatetime) = some post :=
      mapM_self.mpr fun x hx =>
        hall x (hsplit ▸ List.mem_append_right _ (List.mem_cons_of_mem _ hx))
    obtain ⟨-, hid, hkept, -, -⟩ :=
      parse_variant.mp (hall variant (List.mem_of_find?_eq_some hfind))
    change (updateFirst _ _ p.variants).mapM _ = some variants at hvariants'
    rw [hupdate] at hvariants'
    obtain ⟨_, hpre', _, hrest, hjoin⟩ := mapM_append.mp hvariants'
    obtain ⟨variant', hvariant, _, hpost', rfl⟩ := mapM_cons.mp hrest
    obtain rfl := Option.some.inj (hpre.symm.trans hpre')
    obtain rfl := Option.some.inj (hpost.symm.trans hpost')
    obtain ⟨hcurrent'', hid', hversions'', -, hplatform⟩ := parse_variant.mp hvariant
    obtain ⟨_, hkept', _, hlast, hjoined⟩ := mapM_append.mp hversions''
    obtain ⟨read, hversion, rfl⟩ := mapM_singleton.mp hlast
    obtain rfl := Option.some.inj (hkept.symm.trans hkept')
    have hpushed : variant' = variant.push read := by
      obtain ⟨currentId, id, platform', versions'⟩ := variant'
      obtain rfl := Option.some.inj (hid.symm.trans hid')
      obtain rfl := Option.some.inj ((parse_version.mp hversion).id.symm.trans hcurrent'')
      obtain rfl : platform' = variant.platform := hplatform
      obtain rfl : variant.versions ++ [read] = versions' := hjoined
      rfl
    obtain rfl := Option.some.inj (hversions.symm.trans hversions')
    obtain rfl := Option.some.inj (hcurrent.symm.trans hcurrent')
    obtain rfl : updated = timestamp := hupdated
    obtain rfl : frame = p.toContentPackageFrame := hsame
    obtain rfl : pre ++ variant' :: post = variants := hjoin
    refine ⟨read, hversion, ?_, hself⟩
    rw [ContentPackage.push, ContentPackage.pushVariant, hupdate, hpushed]

end Pushes

/-! ## What a read package holds -/

section Held

variable {isDatetime : String → Bool} {p q : ContentPackage} {target : VersionTarget}
  {line : VersionLine} {version : ContentPackageVersion} {variant : ContentPackageVariant}

theorem refined_of_read (h : p.parse isDatetime = some q) : q.Refined :=
  (parse_package.mp h).2.2.2.2.2.2

theorem line_variant_of_mem (hplatforms : (p.variants.map (·.platform)).Nodup)
    (hmem : variant ∈ p.variants) : p.line (.variant variant.platform) = some variant.line := by
  cases hfind : p.variants.find? (·.isOn variant.platform) with
  | none =>
    exact absurd (ContentPackageVariant.isOn_iff.mpr rfl) (List.find?_eq_none.mp hfind variant hmem)
  | some found =>
    have hsame := List.inj_on_of_nodup_map hplatforms (List.mem_of_find?_eq_some hfind) hmem
      (ContentPackageVariant.isOn_iff.mp (List.find?_some hfind))
    exact congrArg (Option.map ContentPackageVariant.line) (hfind.trans (congrArg some hsame))

theorem mem_allVersions (hplatforms : (p.variants.map (·.platform)).Nodup) :
    version ∈ p.allVersions ↔ ∃ target line, p.line target = some line ∧
      version ∈ line.versions := by
  rw [ContentPackage.allVersions, List.mem_append, List.mem_flatMap]
  constructor
  · rintro (hown | ⟨variant, hvariant, hmem⟩)
    · exact ⟨.package, _, rfl, hown⟩
    · exact ⟨.variant variant.platform, _, line_variant_of_mem hplatforms hvariant, hmem⟩
  · rintro ⟨target, line, hline, hmem⟩
    cases target with
    | package =>
      obtain rfl := Option.some.inj hline
      exact .inl hmem
    | variant platform =>
      obtain ⟨variant, hfind, rfl, -⟩ := find?_variant hline
      exact .inr ⟨variant, List.mem_of_find?_eq_some hfind, hmem⟩

theorem line_refined (hrefined : p.Refined) (hline : p.line target = some line) :
    (line.versions.map (·.id)).Nodup ∧
      ∀ id ∈ line.currentVersionId, id ∈ line.versions.map (·.id) := by
  cases target with
  | package =>
    obtain rfl := Option.some.inj hline
    exact ⟨hrefined.versions, hrefined.current⟩
  | variant platform =>
    obtain ⟨variant, hfind, rfl, -⟩ := find?_variant hline
    obtain ⟨hnodup, hcurrent⟩ := hrefined.variants variant (List.mem_of_find?_eq_some hfind)
    refine ⟨hnodup, fun id hid => ?_⟩
    obtain rfl := Option.some.inj hid
    exact hcurrent

theorem frame_read {frame read : ContentPackageFrame} (h : frame.parse = some read) :
    parseTrimmed frame.id = some read.id ∧
      frame.sourceAssetIds.mapM parseTrimmed = some read.sourceAssetIds ∧
      frame.generatedAssetIds.mapM parseTrimmed = some read.generatedAssetIds := by
  simp only [ContentPackageFrame.parse, Option.bind_eq_bind, Option.bind_eq_some_iff,
    Option.some.injEq] at h
  obtain ⟨_, hid, _, hsources, _, -, _, hgenerated, _, -, _, -, rfl⟩ := h
  exact ⟨hid, hsources, hgenerated⟩

/-- An owner's id and its versions are read as they are. -/
theorem line_read (hread : p.parse isDatetime = some p) (hline : p.line target = some line) :
    parseTrimmed line.ownerId = some line.ownerId ∧
      ∀ version ∈ line.versions, version.parse isDatetime = some version := by
  obtain ⟨hframe, -, hversions, hvariants, -⟩ := parse_package.mp hread
  cases target with
  | package =>
    obtain rfl := Option.some.inj hline
    exact ⟨(frame_read hframe).1, mapM_self.mp hversions⟩
  | variant platform =>
    obtain ⟨variant, hfind, rfl, -⟩ := find?_variant hline
    obtain ⟨-, hid, hkept, -, -⟩ :=
      parse_variant.mp (mapM_self.mp hvariants variant (List.mem_of_find?_eq_some hfind))
    exact ⟨hid, mapM_self.mp hkept⟩

theorem mem_editableAssetIds {asset : String} : asset ∈ editableAssetIds p target ↔
    asset ∈ p.sourceAssetIds ∨ asset ∈ p.generatedAssetIds ∨
      ∃ version ∈ (if target = .package then p.versions else p.allVersions),
        asset ∈ version.orderedAssetIds := by
  cases target with
  | package => simp [editableAssetIds]
  | variant platform =>
    simp only [editableAssetIds, ContentPackage.allVersions, List.mem_append, List.mem_flatMap,
      reduceCtorEq, if_false, or_assoc]
    refine or_congr_right (or_congr_right ⟨?_, ?_⟩)
    · rintro (⟨version, hmem, hasset⟩ | ⟨variant, hvariant, version, hmem, hasset⟩)
      · exact ⟨version, .inl hmem, hasset⟩
      · exact ⟨version, .inr ⟨variant, hvariant, hmem⟩, hasset⟩
    · rintro ⟨version, hmem | ⟨variant, hvariant, hmem⟩, hasset⟩
      · exact .inl ⟨version, hmem, hasset⟩
      · exact .inr ⟨variant, hvariant, version, hmem, hasset⟩

theorem editable_read (hread : p.parse isDatetime = some p) {asset : String}
    (h : asset ∈ editableAssetIds p target) : parseTrimmed asset = some asset := by
  have hplatforms := (refined_of_read hread).platforms
  obtain ⟨-, hsources, hgenerated⟩ := frame_read (parse_package.mp hread).1
  have hversions : ∀ version ∈ p.allVersions, ∀ asset ∈ version.orderedAssetIds,
      parseTrimmed asset = some asset := by
    intro version hmem
    obtain ⟨target, line, hline, hmem⟩ := (mem_allVersions hplatforms).mp hmem
    exact mapM_self.mp (parse_version.mp ((line_read hread hline).2 version hmem)).assets
  rcases mem_editableAssetIds.mp h with hsource | hgen | ⟨version, hmem, hasset⟩
  · exact mapM_self.mp hsources asset hsource
  · exact mapM_self.mp hgenerated asset hgen
  · refine hversions version ?_ asset hasset
    split at hmem
    · exact List.mem_append_left _ hmem
    · exact hmem

end Held

/-! ## What the calls do -/

section Outcomes

variable {host : VersionHost} {p q : ContentPackage} {id : String}

theorem orThrow_eq_ok {α : Type} {e : LifecycleThrown} {o : Option α} {a : α} :
    orThrow e o = .ok a ↔ o = some a := by
  cases o <;> simp [orThrow]

/-- **What an edit does.** -/
theorem edit_ok {input : EditVersionInput} (hread : p.parse host.isDatetime = some p)
    (h : editContentPackageLifecycleVersion host p input = .ok (q, id)) :
    ∃ line version, line.currentVersionId = some input.baseVersionId ∧
      Pushed p input.target line version q ∧ q.parse host.isDatetime = some q ∧
      DerivedFor line.ownerId version.id ∧
      ∀ asset ∈ version.orderedAssetIds, asset ∈ editableAssetIds p input.target := by
  simp only [editContentPackageLifecycleVersion, bind_eq_ok, orThrow_eq_ok, guard_eq_ok] at h
  obtain ⟨line, hline, hcurrent, -, base, -, -, -, howned, -, delivery, -, parsed, hparse,
    hsame⟩ := h
  obtain ⟨rfl, -⟩ := Prod.mk.inj (pure_eq_ok.mp hsame)
  obtain ⟨read, hversion, rfl, hself⟩ := read_push hread hline hparse
  have hderived : DerivedFor line.ownerId (editedVersionId host line.ownerId input.baseVersionId
      (input.changes.inherit base) input.intent) := ⟨_, host.editDigest_hex _ _ _, .inl rfl⟩
  have hid : some read.id = some _ := (parse_version.mp hversion).id.symm.trans
    (parseTrimmed_derived (line_read hread hline).1 hderived)
  refine ⟨line, read, not_not.mp hcurrent, pushed_push hline, hself,
    (Option.some.inj hid).symm ▸ hderived, fun asset hasset => ?_⟩
  obtain ⟨given, hgiven, hread'⟩ := exists_of_mem_mapM (parse_version.mp hversion).assets hasset
  have hmem : given ∈ editableAssetIds p input.target := by
    by_contra hnot
    exact howned (List.any_eq_true.mpr ⟨given, hgiven, decide_eq_true hnot⟩)
  rw [← Option.some.inj ((editable_read hread hmem).symm.trans hread')]
  exact hmem

variable {target : VersionTarget} {line line' : VersionLine}

/-- **Where ids are distinct, an id stands in one line.** -/
theorem distinct_line (hplatforms : (p.variants.map (·.platform)).Nodup) (hdistinct : p.DistinctIds)
    {target' : VersionTarget} {version version' : ContentPackageVersion}
    (hline : p.line target = some line) (hmem : version ∈ line.versions)
    (hline' : p.line target' = some line') (hmem' : version' ∈ line'.versions)
    (hid : version.id = version'.id) : target = target' ∧ version = version' := by
  have hall := (mem_allVersions hplatforms).mpr ⟨target, line, hline, hmem⟩
  have hall' := (mem_allVersions hplatforms).mpr ⟨target', line', hline', hmem'⟩
  obtain rfl := List.inj_on_of_nodup_map hdistinct hall hall' hid
  refine ⟨?_, rfl⟩
  have hnodup := hdistinct.of_map
  rw [ContentPackage.allVersions, List.nodup_append] at hnodup
  obtain ⟨-, hvariants, hapart⟩ := hnodup
  cases target with
  | package =>
    obtain rfl := Option.some.inj hline
    cases target' with
    | package => rfl
    | variant platform =>
      obtain ⟨variant, hfind, rfl, -⟩ := find?_variant hline'
      exact absurd rfl (hapart version hmem version
        (List.mem_flatMap.mpr ⟨variant, List.mem_of_find?_eq_some hfind, hmem'⟩))
  | variant platform =>
    obtain ⟨variant, hfind, rfl, rfl⟩ := find?_variant hline
    have hvariant := List.mem_of_find?_eq_some hfind
    cases target' with
    | package =>
      obtain rfl := Option.some.inj hline'
      exact absurd rfl (hapart version hmem' version
        (List.mem_flatMap.mpr ⟨variant, hvariant, hmem⟩))
    | variant platform' =>
      obtain ⟨variant', hfind', rfl, rfl⟩ := find?_variant hline'
      have hdisjoint := (List.nodup_flatMap.mp hvariants).2
      by_contra hne
      have hne' : variant ≠ variant' := fun heq => hne (congrArg _ (congrArg _ heq))
      have hsymm : Std.Symm (Function.onFun List.Disjoint ContentPackageVariant.versions) :=
        ⟨fun _ _ h => List.Disjoint.symm h⟩
      exact hdisjoint.forall hvariant (List.mem_of_find?_eq_some hfind') hne' hmem hmem'

theorem ownerOf_line (hplatforms : (p.variants.map (·.platform)).Nodup) (hdistinct : p.DistinctIds)
    {version : ContentPackageVersion} (hline : p.line target = some line)
    (hmem : version ∈ line.versions) : p.ownerOf version.id = some target := by
  rw [ContentPackage.ownerOf]
  split
  · next hown =>
    obtain ⟨own, hown, hid⟩ := List.any_eq_true.mp hown
    have hpackage : p.line .package = some _ := rfl
    exact congrArg some (distinct_line hplatforms hdistinct hpackage hown hline hmem
      (of_decide_eq_true hid)).1
  · next hown =>
    cases hholds : p.variants.find? (ContentPackageVariant.holds version.id) with
    | none =>
      cases target with
      | package =>
        obtain rfl := Option.some.inj hline
        exact absurd (List.any_eq_true.mpr ⟨version, hmem, decide_eq_true rfl⟩) hown
      | variant platform =>
        obtain ⟨variant, hfind, rfl, -⟩ := find?_variant hline
        exact absurd (List.any_eq_true.mpr ⟨version, hmem, decide_eq_true rfl⟩)
          (List.find?_eq_none.mp hholds variant (List.mem_of_find?_eq_some hfind))
    | some found =>
      have hline' := line_variant_of_mem hplatforms (List.mem_of_find?_eq_some hholds)
      have hany : found.holds version.id = true := List.find?_some hholds
      obtain ⟨other, hother, hid⟩ := List.any_eq_true.mp hany
      exact congrArg some (distinct_line hplatforms hdistinct hline' hother hline hmem
        (of_decide_eq_true hid)).1

variable {input : RollbackVersionInput}

/-- A restored version put behind the others. -/
theorem restored_ok {source : ContentPackageVersion} {versionId : String}
    (hread : p.parse host.isDatetime = some p) (hline : p.line target = some line)
    (hmem : source ∈ line.versions) (hderived : DerivedFor line.ownerId versionId)
    (h : (p.push target (restoredVersion input source versionId) input.timestamp).parse
      host.isDatetime = some q) :
    ∃ version, Pushed p target line version q ∧ q.parse host.isDatetime = some q ∧
      DerivedFor line.ownerId version.id ∧ version.toVersionChanges =
        { source.toVersionChanges with
          note := none, conversionHook := truthy source.conversionHook } := by
  obtain ⟨howner, hversions⟩ := line_read hread hline
  obtain ⟨read, hversion, rfl, hself⟩ := read_push hread hline h
  have hid : some read.id = some versionId := (parse_version.mp hversion).id.symm.trans
    (parseTrimmed_derived howner hderived)
  have hsource := parse_version.mp (hversions source hmem)
  have hread' := parse_version.mp hversion
  have hassets := Option.some.inj (hread'.assets.symm.trans hsource.assets)
  have htopics := Option.some.inj (hread'.topics.symm.trans hsource.topics)
  refine ⟨read, pushed_push hline, hself, (Option.some.inj hid).symm ▸ hderived, ?_⟩
  have hrest := congrArg ContentPackageVersion.toVersionChanges hread'.rest
  rw [hrest, hassets, htopics]
  rfl

/-- **What a rollback does**: nothing where the version named is current, and otherwise a version of
its content without the note. -/
theorem rollback_ok (hread : p.parse host.isDatetime = some p) (hdistinct : p.DistinctIds)
    (h : rollbackContentPackageLifecycleVersion host p input = .ok (q, id)) :
    ∃ target line source, p.line target = some line ∧ source ∈ line.versions ∧
      source.id = input.targetVersionId ∧
      ((q = p ∧ line.currentVersionId = some input.targetVersionId) ∨
        line.currentVersionId ≠ some input.targetVersionId ∧ ∃ version,
          Pushed p target line version q ∧ q.parse host.isDatetime = some q ∧
          DerivedFor line.ownerId version.id ∧ version.toVersionChanges =
            { source.toVersionChanges with
              note := none, conversionHook := truthy source.conversionHook }) := by
  have hplatforms := (refined_of_read hread).platforms
  simp only [rollbackContentPackageLifecycleVersion, bind_eq_ok, orThrow_eq_ok, guard_eq_ok] at h
  obtain ⟨-, source, hsource, h⟩ := h
  cases hown : p.versions.find? (·.id = input.targetVersionId) with
  | some own =>
    have hmem := List.mem_of_find?_eq_some hown
    have hid : own.id = input.targetVersionId := by simpa using List.find?_some hown
    rw [hown] at hsource
    obtain rfl : own = source := Option.some.inj hsource
    -- no variant holds an id of the package's own
    have hnone : p.variants.find? (ContentPackageVariant.holds input.targetVersionId) = none := by
      rw [List.find?_eq_none]
      intro variant hvariant hholds
      obtain ⟨other, hother, hid'⟩ := List.any_eq_true.mp hholds
      have hpackage : p.line .package = some _ := rfl
      have hsame := distinct_line hplatforms hdistinct hpackage hmem
        (line_variant_of_mem hplatforms hvariant) hother
        (hid.trans (of_decide_eq_true hid').symm)
      cases hsame.1
    simp only [hnone, Option.any_none, Bool.false_eq_true, or_false, Option.isSome_none, if_false]
      at h
    refine ⟨.package, _, own, rfl, hmem, hid, ?_⟩
    split at h
    · next hcurrent =>
      obtain ⟨rfl, -⟩ := Prod.mk.inj (pure_eq_ok.mp h)
      exact .inl ⟨rfl, hcurrent⟩
    · next hcurrent =>
      obtain ⟨parsed, hparse, hsame⟩ := bind_eq_ok.mp h
      obtain ⟨rfl, -⟩ := Prod.mk.inj (pure_eq_ok.mp hsame)
      have hpackage : p.line .package = some _ := rfl
      exact .inr ⟨hcurrent, restored_ok hread hpackage hmem
        ⟨_, host.digest_hex _, .inr rfl⟩ (orThrow_eq_ok.mp hparse)⟩
  | none =>
    rw [hown] at hsource
    obtain ⟨variant, hfind, hversion⟩ := Option.bind_eq_some_iff.mp
      (hsource : Option.bind _ _ = some source)
    have hvariant := List.mem_of_find?_eq_some hfind
    have hmem := List.mem_of_find?_eq_some hversion
    have hid : source.id = input.targetVersionId := by simpa using List.find?_some hversion
    -- a version of the package that is current is one of its own
    have hnot : p.currentVersionId ≠ some input.targetVersionId := by
      intro hcurrent
      obtain ⟨own, hmem, hid⟩ := List.mem_map.mp ((refined_of_read hread).current _ hcurrent)
      exact absurd (decide_eq_true hid) (List.find?_eq_none.mp hown own hmem)
    simp only [hfind, Option.any_some, decide_eq_true_eq, hnot, false_or, Option.isSome_some,
      if_true] at h
    refine ⟨_, _, source, line_variant_of_mem hplatforms hvariant, hmem, hid, ?_⟩
    split at h
    · next hcurrent =>
      obtain ⟨rfl, -⟩ := Prod.mk.inj (pure_eq_ok.mp h)
      exact .inl ⟨rfl, congrArg some hcurrent⟩
    · next hcurrent =>
      obtain ⟨parsed, hparse, hsame⟩ := bind_eq_ok.mp h
      obtain ⟨rfl, -⟩ := Prod.mk.inj (pure_eq_ok.mp hsame)
      have hparse' := orThrow_eq_ok.mp hparse
      rw [pushVariant_eq hplatforms hfind] at hparse'
      exact .inr ⟨fun heq => hcurrent (Option.some.inj heq),
        restored_ok hread (line_variant_of_mem hplatforms hvariant) hmem
          ⟨_, host.digest_hex _, .inr rfl⟩ hparse'⟩

end Outcomes

/-! ## Versions over a run of calls -/

section Law

variable {host : VersionHost} {p q : ContentPackage} {target : VersionTarget} {line : VersionLine}
  {version : ContentPackageVersion}

theorem grows_refl (line : Option VersionLine) : Option.Rel VersionLine.Grows line line := by
  cases line with
  | none => exact .none
  | some line => exact .some ⟨rfl, List.prefix_refl _⟩

theorem Pushed.kept (h : Pushed p target line version q) (other : VersionTarget) :
    Option.Rel VersionLine.Grows (p.line other) (q.line other) := by
  by_cases hother : other = target
  · rw [hother, h.old, h.new]
    exact .some ⟨rfl, List.prefix_append _ _⟩
  · rw [h.others other hother]
    exact grows_refl _

/-- A line afterwards is one from before, but for the version. -/
theorem Pushed.back (h : Pushed p target line version q) {other : VersionTarget}
    (hline : q.line other = some line') :
    ∃ before, p.line other = some before ∧ before.ownerId = line'.ownerId ∧
      ∀ v ∈ line'.versions, v ∈ before.versions ∨ other = target ∧ v = version := by
  by_cases hother : other = target
  · rw [hother, h.new] at hline
    obtain rfl := Option.some.inj hline
    refine ⟨line, hother ▸ h.old, rfl, fun v hv => ?_⟩
    rcases List.mem_append.mp hv with hv | hv
    · exact .inl hv
    · exact .inr ⟨hother, List.mem_singleton.mp hv⟩
  · rw [h.others other hother] at hline
    exact ⟨line', hline, rfl, fun v hv => .inl hv⟩

/-- **No other version has the id.** -/
theorem Pushed.fresh (h : Pushed p target line version q) (hplatforms : (p.variants.map
    (·.platform)).Nodup) (hrefined : q.Refined) (hapart : p.Apart)
    (hderived : DerivedFor line.ownerId version.id) :
    version.id ∉ p.allVersions.map (·.id) := by
  intro hmem
  obtain ⟨old, hold, hid⟩ := List.mem_map.mp hmem
  obtain ⟨other, line', hline, hold⟩ := (mem_allVersions hplatforms).mp hold
  by_cases hother : other = target
  · rw [hother, h.old] at hline
    obtain rfl := Option.some.inj hline
    have hnodup := (line_refined hrefined h.new).1
    rw [List.map_append, List.nodup_append] at hnodup
    exact hnodup.2.2 old.id (List.mem_map_of_mem hold) version.id List.mem_cons_self hid
  · exact hapart.foreign target other line line' h.old hline (Ne.symm hother) old hold
      (hid ▸ hderived)

theorem Pushed.distinct (h : Pushed p target line version q) (hdistinct : p.DistinctIds)
    (hfresh : version.id ∉ p.allVersions.map (·.id)) : q.DistinctIds := by
  rw [ContentPackage.DistinctIds, (h.perm.map _).nodup_iff, List.map_cons, List.nodup_cons]
  exact ⟨hfresh, hdistinct⟩

theorem Pushed.apart (h : Pushed p target line version q) (hapart : p.Apart)
    (hderived : DerivedFor line.ownerId version.id) : q.Apart := by
  constructor
  · intro a b line' line'' ha hb howner
    obtain ⟨before, hbefore, hsame, -⟩ := h.back ha
    obtain ⟨before', hbefore', hsame', -⟩ := h.back hb
    exact hapart.owners a b before before' hbefore hbefore' (hsame.trans (howner.trans hsame'.symm))
  · intro a b line' line'' ha hb hne v hv hforeign
    obtain ⟨before, hbefore, hsame, -⟩ := h.back ha
    obtain ⟨before', hbefore', -, hback⟩ := h.back hb
    rw [← hsame] at hforeign
    rcases hback v hv with hold | ⟨rfl, rfl⟩
    · exact hapart.foreign a b before before' hbefore hbefore' hne v hold hforeign
    · exact hne (hapart.owners a b before line hbefore h.old (hforeign.owner hderived))

theorem Pushed.owned (h : Pushed p target line version q)
    (hassets : ∀ asset ∈ version.orderedAssetIds, asset ∈ editableAssetIds p target)
    {other : VersionTarget} {line'' : VersionLine} (hold : p.line other = some line')
    (hnew : q.line other = some line'') {v : ContentPackageVersion} (hmem : v ∈ line''.versions)
    (hnot : v ∉ line'.versions) :
    ∀ asset ∈ v.orderedAssetIds, asset ∈ editableAssetIds p other := by
  obtain ⟨before, hbefore, -, hback⟩ := h.back hnew
  obtain rfl := Option.some.inj (hold.symm.trans hbefore)
  rcases hback v hmem with hmem | ⟨rfl, rfl⟩
  · exact absurd hmem hnot
  · exact hassets

theorem Pushed.assets (h : Pushed p target line version q)
    (hassets : ∀ asset ∈ version.orderedAssetIds, asset ∈ editableAssetIds p target)
    (other : VersionTarget) (asset : String) :
    asset ∈ editableAssetIds q other ↔ asset ∈ editableAssetIds p other := by
  have hwidens : ∀ asset, asset ∈ editableAssetIds p target → ∀ platform,
      asset ∈ editableAssetIds p (.variant platform) := by
    intro asset hasset platform
    rw [mem_editableAssetIds] at hasset ⊢
    refine hasset.imp_right (Or.imp_right fun ⟨v, hv, hasset⟩ => ⟨v, ?_, hasset⟩)
    rw [if_neg nofun]
    split at hv
    · exact List.mem_append_left _ hv
    · exact hv
  rw [mem_editableAssetIds, mem_editableAssetIds, h.frame]
  cases other with
  | package =>
    rw [if_pos rfl, if_pos rfl]
    cases target with
    | package =>
      obtain rfl := Option.some.inj h.old
      have hversions : q.versions = p.versions ++ [version] :=
        congrArg VersionLine.versions (Option.some.inj h.new)
      have hlast := fun hasset => mem_editableAssetIds.mp (hassets asset hasset)
      rw [if_pos rfl] at hlast
      rw [hversions]
      constructor
      · rintro (hsource | hgen | ⟨v, hv, hasset⟩)
        · exact .inl hsource
        · exact .inr (.inl hgen)
        · rcases List.mem_append.mp hv with hv | hv
          · exact .inr (.inr ⟨v, hv, hasset⟩)
          · obtain rfl := List.mem_singleton.mp hv
            exact hlast hasset
      · exact Or.imp_right (Or.imp_right fun ⟨v, hv, hasset⟩ =>
          ⟨v, List.mem_append_left _ hv, hasset⟩)
    | variant platform =>
      have hversions : q.versions = p.versions :=
        congrArg VersionLine.versions (Option.some.inj (h.others .package nofun))
      rw [hversions]
  | variant platform =>
    rw [if_neg nofun, if_neg nofun]
    have hlast := fun hasset =>
      mem_editableAssetIds.mp (hwidens asset (hassets asset hasset) platform)
    rw [if_neg nofun] at hlast
    simp only [h.perm.mem_iff, List.mem_cons]
    constructor
    · rintro (hsource | hgen | ⟨v, rfl | hv, hasset⟩)
      · exact .inl hsource
      · exact .inr (.inl hgen)
      · exact hlast hasset
      · exact .inr (.inr ⟨v, hv, hasset⟩)
    · exact Or.imp_right (Or.imp_right fun ⟨v, hv, hasset⟩ => ⟨v, .inr hv, hasset⟩)

end Law

/-! ## The calls keep the law -/

section Runs

variable {host : VersionHost} {p q : ContentPackage} {id : String}

/-- What a run goes on with. -/
structure VersionInvariant (host : VersionHost) (p : ContentPackage) : Prop where
  read : p.parse host.isDatetime = some p
  distinct : p.DistinctIds
  apart : p.Apart

variable {call : VersionCall}

/-- The law of a call that changes nothing. -/
theorem versionLaw_of_same (hinv : VersionInvariant host p) (hsame : p.next host call = p)
    (hstale : ∀ input, call = .edit input → (∀ line, p.line input.target = some line →
      line.currentVersionId ≠ some input.baseVersionId) → ∃ e, call.answer host p = .error e)
    (hrestores : ∀ input, call = .rollback input → ∀ q id, call.answer host p = .ok (q, id) →
      p.Restores q input.targetVersionId) : VersionLaw host p call where
  kept _ := by
    rw [hsame]
    exact grows_refl _
  distinct := hsame.symm ▸ hinv.distinct
  current _ _ hline := (line_refined (refined_of_read hinv.read) (hsame ▸ hline)).2
  alone _ _ := by rw [hsame]
  frame := by rw [hsame]
  stale := hstale
  refused _ _ := hsame
  owned _ _ _ hold hnew _ hmem hnot := by
    rw [hsame, hold] at hnew
    obtain rfl := Option.some.inj hnew
    exact absurd hmem hnot
  assets _ _ := by rw [hsame]
  restores := hrestores

/-- The law of a call that puts a version behind the others. -/
theorem versionLaw_of_pushed {target : VersionTarget} {line : VersionLine}
    {version : ContentPackageVersion} (hinv : VersionInvariant host p)
    (hanswer : call.answer host p = .ok (q, id)) (htarget : call.target p = some target)
    (h : Pushed p target line version q) (hread : q.parse host.isDatetime = some q)
    (hderived : DerivedFor line.ownerId version.id)
    (hassets : ∀ asset ∈ version.orderedAssetIds, asset ∈ editableAssetIds p target)
    (hstale : ∀ input, call = .edit input → line.currentVersionId = some input.baseVersionId)
    (hrestores : ∀ input, call = .rollback input → p.Restores q input.targetVersionId) :
    VersionInvariant host (p.next host call) ∧ VersionLaw host p call := by
  have hnext : p.next host call = q := by rw [ContentPackage.next, hanswer]
  have hplatforms := (refined_of_read hinv.read).platforms
  have hrefined := refined_of_read hread
  have hdistinct := h.distinct hinv.distinct (h.fresh hplatforms hrefined hinv.apart hderived)
  refine ⟨hnext ▸ ⟨hread, hdistinct, h.apart hinv.apart hderived⟩, ?_⟩
  refine
    { kept := fun other => hnext ▸ h.kept other
      distinct := hnext ▸ hdistinct
      current := fun other line' hline => (line_refined hrefined (hnext ▸ hline)).2
      alone := fun other hother => ?_
      frame := hnext ▸ h.frame
      stale := fun input hcall hnot => ?_
      refused := fun e herror => nomatch herror.symm.trans hanswer
      owned := fun other line' line'' hold hnew v hmem hnot =>
        h.owned hassets hold (hnext ▸ hnew) hmem hnot
      assets := fun other asset => hnext ▸ h.assets hassets other asset
      restores := fun input hcall q' id' hok => ?_ }
  · rw [hnext]
    exact h.others other fun heq => hother (heq ▸ htarget)
  · subst hcall
    obtain rfl := Option.some.inj (htarget : some input.target = some target)
    exact absurd (hstale input rfl) (hnot line h.old)
  · obtain ⟨rfl, -⟩ := Prod.mk.inj (Except.ok.inj (hanswer.symm.trans hok))
    exact hrestores input hcall

/-- **A rollback restores exactly the versions that can be restored.** -/
theorem restores_iff (hread : p.parse host.isDatetime = some p) (hdistinct : p.DistinctIds)
    (h : rollbackContentPackageLifecycleVersion host p input = .ok (q, id)) :
    p.Restores q input.targetVersionId ↔ p.Restorable input.targetVersionId := by
  have hplatforms := (refined_of_read hread).platforms
  obtain ⟨target, line, source, hline, hmem, hid, hcase⟩ := rollback_ok hread hdistinct h
  -- the version named is the source, in its line
  have hunique : ∀ {other line' version}, p.line other = some line' → version ∈ line'.versions →
      version.id = input.targetVersionId → other = target ∧ version = source :=
    fun hline' hmem' hid' =>
      distinct_line hplatforms hdistinct hline' hmem' hline hmem (hid'.trans hid.symm)
  rcases hcase with ⟨rfl, hcurrent⟩ | ⟨hcurrent, version, hpushed, hself, -, hcontent⟩
  · refine iff_of_true ⟨target, line, hline, source, hmem, hid, line, hline, source, hmem,
      hcurrent.trans (congrArg some hid.symm), rfl⟩ fun other line' hline' version hmem' hid' => ?_
    obtain ⟨rfl, -⟩ := hunique hline' hmem' hid'
    obtain rfl := Option.some.inj (hline.symm.trans hline')
    exact .inl hcurrent
  · have htop : version ∈ line.versions ++ [version] := List.mem_append_right _ List.mem_cons_self
    constructor
    · rintro ⟨other, line', hline', named, hmem', hid', line'', hline'', top, htop', hcurrent',
        hsame⟩
      obtain ⟨rfl, rfl⟩ := hunique hline' hmem' hid'
      obtain rfl := Option.some.inj (hpushed.new.symm.trans hline'')
      -- ids of a line are distinct, so what is current is the version put behind
      have hnodup := (line_refined (refined_of_read hself) hpushed.new).1
      have hid'' : top.id = version.id := (Option.some.inj hcurrent').symm
      rw [List.inj_on_of_nodup_map hnodup htop' htop hid'', hcontent] at hsame
      intro other line'' hline'' named' hmem'' hid'''
      obtain ⟨rfl, rfl⟩ := hunique hline'' hmem'' hid'''
      refine .inr ⟨(congrArg VersionChanges.note hsame).symm, fun hempty => ?_⟩
      have hhook := congrArg VersionChanges.conversionHook hsame
      rw [hempty] at hhook
      exact nomatch hhook
    · intro hrestorable
      obtain hcurrent' | ⟨hnote, hhook⟩ := hrestorable target line hline source hmem hid
      · exact absurd hcurrent' hcurrent
      · refine ⟨target, line, hline, source, hmem, hid, _, hpushed.new, version, htop, rfl, ?_⟩
        have hsame : truthy source.conversionHook = source.conversionHook := by
          cases hsome : source.conversionHook with
          | none => rfl
          | some hook => simp_all [truthy, Option.filter]
        rw [hcontent, hsame, ← hnote]

theorem mem_allVersions_of_line {target : VersionTarget} {line : VersionLine}
    {version : ContentPackageVersion} (hline : p.line target = some line)
    (hmem : version ∈ line.versions) : version ∈ p.allVersions := by
  cases target with
  | package =>
    obtain rfl := Option.some.inj hline
    exact List.mem_append_left _ hmem
  | variant platform =>
    obtain ⟨variant, hfind, rfl, -⟩ := find?_variant hline
    exact List.mem_append_right _
      (List.mem_flatMap.mpr ⟨variant, List.mem_of_find?_eq_some hfind, hmem⟩)

theorem versionLaw_step (hinv : VersionInvariant host p) (hmet : VersionMet p call) :
    VersionInvariant host (p.next host call) ∧ VersionLaw host p call := by
  cases hanswer : call.answer host p with
  | error e =>
    have hsame : p.next host call = p := by rw [ContentPackage.next, hanswer]
    refine ⟨hsame.symm ▸ hinv, versionLaw_of_same hinv hsame (fun _ _ _ => ⟨e, hanswer⟩)
      fun _ _ _ _ hok => ?_⟩
    exact nomatch hanswer.symm.trans hok
  | ok result =>
    obtain ⟨q, id⟩ := result
    cases call with
    | edit input =>
      obtain ⟨line, version, hcurrent, hpushed, hread, hderived, hassets⟩ :=
        edit_ok hinv.read hanswer
      refine versionLaw_of_pushed hinv hanswer rfl hpushed hread hderived hassets
        (fun input' hcall => ?_) fun _ hcall => nomatch hcall
      cases hcall
      exact hcurrent
    | rollback input =>
      have hrestores := (restores_iff hinv.read hinv.distinct hanswer).mpr hmet
      obtain ⟨target, line, source, hline, hmem, hid, hcase⟩ :=
        rollback_ok hinv.read hinv.distinct hanswer
      rcases hcase with ⟨rfl, -⟩ | ⟨-, version, hpushed, hread, hderived, hcontent⟩
      · have hsame : q.next host (.rollback input) = q := by rw [ContentPackage.next, hanswer]
        refine ⟨hsame.symm ▸ hinv, versionLaw_of_same hinv hsame (fun _ hcall => nomatch hcall)
          fun input' hcall q' id' hok => ?_⟩
        cases hcall
        obtain ⟨rfl, -⟩ := Prod.mk.inj (Except.ok.inj (hanswer.symm.trans hok))
        exact hrestores
      · have htarget : (VersionCall.rollback input).target p = some target := by
          rw [VersionCall.target, ← hid]
          exact ownerOf_line (refined_of_read hinv.read).platforms hinv.distinct hline hmem
        refine versionLaw_of_pushed hinv hanswer htarget hpushed hread hderived
          (fun asset hasset => ?_) (fun _ hcall => nomatch hcall) fun input' hcall => ?_
        · rw [congrArg VersionChanges.orderedAssetIds hcontent] at hasset
          refine mem_editableAssetIds.mpr (.inr (.inr ⟨source, ?_, hasset⟩))
          split
          · next hpackage =>
            subst hpackage
            obtain rfl := Option.some.inj hline
            exact hmem
          · exact mem_allVersions_of_line hline hmem
        · cases hcall
          exact hrestores

/-- **Versions are append-only and going back restores**: in every run of calls on a package whose
version ids are distinct and whose owners are told apart, where each rollback names a version that
can be restored; and a rollback restores exactly these. -/
theorem versionsHold (host : VersionHost) {p : ContentPackage}
    (hread : p.parse host.isDatetime = some p) (hdistinct : p.DistinctIds) :
    (p.Apart → ∀ calls, Admits (ContentPackage.next host) VersionMet calls p →
      Admits (ContentPackage.next host) (VersionLaw host) calls p) ∧
    ∀ input q id, rollbackContentPackageLifecycleVersion host p input = .ok (q, id) →
      (p.Restores q input.targetVersionId ↔ p.Restorable input.targetVersionId) :=
  ⟨fun hapart _ hmet => Admits.beside (VersionInvariant host) (fun _ _ => versionLaw_step)
      ⟨hread, hdistinct, hapart⟩ hmet,
    fun _ _ _ hok => restores_iff hread hdistinct hok⟩

end Runs

/-! ## Concrete packages -/

section Concrete

/-- The host of concrete runs: every digest is one. -/
def plainVersionHost : VersionHost where
  isDatetime text := (parseIso text).isSome
  editDigest _ _ _ := "0123456789abcdef"
  digest _ := "0123456789abcdef"
  editDigest_hex _ _ _ := ⟨by decide, by decide⟩
  digest_hex _ := ⟨by decide, by decide⟩

def versionOf (id : String) (note : Option ImageTextNoteVersion) : ContentPackageVersion where
  body := "body"
  note
  orderedAssetIds := []
  title := id
  topics := ["nails"]
  createdAt := "2026-01-01T00:00:00.000Z"
  id

/-- A package of two versions, of which the second is current. -/
def twoVersions (note : Option ImageTextNoteVersion) : ContentPackage where
  id := "p"
  status := .accepted
  currentVersionId := some "p-v2"
  updatedAt := "2026-01-01T00:00:00.000Z"
  versions := [versionOf "p-v1" note, versionOf "p-v2" none]

def variantOf (platform : ContentPackagePlatform) (id current : String) (ids : List String) :
    ContentPackageVariant where
  currentVersionId := current
  id
  platform
  versions := ids.map (versionOf · none)

/-- A variant with the id of its package, and version ids that spell the same two by two. -/
def sharedNames : ContentPackage where
  id := "p"
  status := .accepted
  currentVersionId := some "b:c"
  updatedAt := "2026-01-01T00:00:00.000Z"
  versions := [versionOf "a" none, versionOf "b:c" none]
  variants := [variantOf .xiaohongshu "p" "c" ["a:b", "c"]]
  legacySource := true

def backTo (targetVersionId : String) : VersionCall :=
  .rollback ⟨targetVersionId, "2026-01-02T00:00:00.000Z", "user"⟩

def retitled (baseVersionId : String) : VersionCall :=
  .edit
    { baseVersionId
      changes := { body := "body", orderedAssetIds := [], title := "again", topics := ["nails"] }
      target := .package
      timestamp := "2026-01-02T00:00:00.000Z"
      userId := "user" }

variable {note : Option ImageTextNoteVersion}

theorem read_versionOf {id : String} (hid : parseTrimmed id = some id) :
    (versionOf id note).parse plainVersionHost.isDatetime = some (versionOf id note) := by
  have htopics : ["nails"].mapM parseTrimmed = some ["nails"] := by decide +kernel
  have hdated : plainVersionHost.isDatetime "2026-01-01T00:00:00.000Z" = true := by decide +kernel
  exact parse_version.mpr ⟨rfl, rfl, rfl, rfl, hid, rfl, rfl, rfl, htopics, ⟨hdated, nofun⟩, rfl⟩

theorem read_twoVersions :
    (twoVersions note).parse plainVersionHost.isDatetime = some (twoVersions note) := by
  have hframe : ContentPackageFrame.parse { id := "p", status := .accepted } =
      some { id := "p", status := .accepted } := by decide +kernel
  have hcurrent : (some "p-v2").mapM parseTrimmed = some (some "p-v2") := by decide +kernel
  have hfirst : parseTrimmed "p-v1" = some "p-v1" := by decide +kernel
  have hsecond : parseTrimmed "p-v2" = some "p-v2" := by decide +kernel
  have hdated : plainVersionHost.isDatetime "2026-01-01T00:00:00.000Z" = true := by decide +kernel
  refine parse_package.mpr ⟨hframe, hcurrent, mapM_self.mpr ?_, rfl, rfl, hdated, ?_⟩
  · intro version hmem
    rcases List.mem_cons.mp hmem with rfl | hmem
    · exact read_versionOf hfirst
    · obtain rfl := List.mem_singleton.mp hmem
      exact read_versionOf hsecond
  · exact ⟨by simp [twoVersions, versionOf], by simp [twoVersions, versionOf], List.nodup_nil,
      nofun, nofun, .inr (.inl rfl), List.nodup_nil, nofun⟩

theorem distinctIds_twoVersions : (twoVersions note).DistinctIds := by
  simp [ContentPackage.DistinctIds, ContentPackage.allVersions, twoVersions, versionOf]

theorem apart_twoVersions : (twoVersions note).Apart := by
  have hline : ∀ target line, (twoVersions note).line target = some line → target = .package := by
    intro target line h
    cases target with
    | package => rfl
    | variant platform => exact nomatch h
  constructor
  · intro target target' line line' h h' _
    rw [hline target line h, hline target' line' h']
  · intro target target' line line' h h' hne
    exact absurd ((hline target line h).trans (hline target' line' h').symm) hne

theorem restorable_of_all {p : ContentPackage} {versionId : String}
    (h : p.allVersions.all fun version =>
      version.note.isNone && version.conversionHook != some "") :
    p.Restorable versionId := by
  intro target line hline version hmem _
  have hversion := List.all_eq_true.mp h version (mem_allVersions_of_line hline hmem)
  rw [Bool.and_eq_true, Option.isNone_iff_eq_none, bne_iff_ne] at hversion
  exact .inr hversion

/-- An edit on a base that is no longer current, one on the current version, and the way back. -/
theorem versionsHold_back : Admits (ContentPackage.next plainVersionHost)
    (VersionLaw plainVersionHost) [retitled "p-v1", retitled "p-v2", backTo "p-v1"]
    (twoVersions none) :=
  (versionsHold plainVersionHost read_twoVersions distinctIds_twoVersions).1 apart_twoVersions _
    ⟨trivial, trivial, restorable_of_all (by decide +kernel), trivial⟩

/-- **A rollback to a version with a note loses it**; and where a variant has the id of its package,
two rollbacks make one id twice. -/
theorem not_versionsHold :
    (¬ Admits (ContentPackage.next plainVersionHost) (VersionLaw plainVersionHost) [backTo "p-v1"]
      (twoVersions (some ⟨[], .null⟩))) ∧
    sharedNames.DistinctIds ∧ ¬ Admits (ContentPackage.next plainVersionHost)
      (VersionLaw plainVersionHost) [backTo "a", backTo "a:b"] sharedNames := by
  refine ⟨fun hlaw => ?_, by decide +kernel, fun hlaw => ?_⟩
  · have hok : ((backTo "p-v1").answer plainVersionHost
        (twoVersions (some ⟨[], .null⟩))).isOk = true := by decide +kernel
    cases hanswer : (backTo "p-v1").answer plainVersionHost (twoVersions (some ⟨[], .null⟩)) with
    | error e => exact nomatch (congrArg Except.isOk hanswer).symm.trans hok
    | ok result =>
      have hrestores := hlaw.1.restores _ rfl result.1 result.2 hanswer
      have hmet := (restores_iff read_twoVersions distinctIds_twoVersions hanswer).mp hrestores
      rcases hmet .package _ rfl (versionOf "p-v1" (some ⟨[], .null⟩)) List.mem_cons_self rfl with
        hcurrent | ⟨hnote, -⟩
      · exact absurd hcurrent (by decide)
      · exact nomatch hnote
  · exact absurd hlaw.2.1.distinct (by decide +kernel)

end Concrete

end MeiyeAgent
