import MeiyeAgent.Foundation.Schemas
import MeiyeAgent.Machinery.Matching

/-!
# Harness/SensitiveScan — the sensitive words of a text

A text is normalised grapheme by grapheme, each unit keeping the range it comes from; every enabled
word is searched in it without regard to case; and what is found is cut down to hits that do not
overlap.  Every budget that is exceeded is an error.  How a text splits into graphemes, what they
normalise to and which letters differ in case only are the host's.  A scan is clear where its
budgets are kept and no word is part of the normalised text (`isClear_iff`).
-/

namespace MeiyeAgent

/-! ## Words, hits and budgets -/

inductive SensitiveWordCategory
  | extreme | medical | cosmetic | finance | legal | vulgar | other
  deriving DecidableEq

inductive SensitiveWordStatus
  | enabled | disabled
  deriving DecidableEq

/-- A word of the lexicon, without the dates of the record. -/
structure SensitiveWordRecord where
  id : String
  word : String
  category : SensitiveWordCategory
  replacements : List String
  status : SensitiveWordStatus
  deriving DecidableEq

/-- A word found; its place and its length are in code units of the text as it was given. -/
structure SensitiveWordHit where
  wordId : String
  word : String
  category : SensitiveWordCategory
  replacements : List String
  index : Nat
  length : Nat
  deriving DecidableEq

structure SensitiveScanResult where
  schemaVersion : String
  complete : Bool
  textLength : Nat
  hitCount : Nat
  hits : List SensitiveWordHit
  deriving DecidableEq

/-- A hit for the check bar; its snippet is in code units, as a cut may halve a pair. -/
structure SensitiveCheckBarItem where
  wordId : String
  word : String
  category : SensitiveWordCategory
  snippet : List Nat
  replacements : List String
  deriving DecidableEq

inductive SensitiveCheckBarStatus
  | clear | hits
  deriving DecidableEq

structure SensitiveCheckBar where
  schemaVersion : String
  status : SensitiveCheckBarStatus
  summary : String
  items : List SensitiveCheckBarItem
  deriving DecidableEq

inductive SensitiveScanLimitName
  | maxTextLength | maxEnabledWords | maxWorkUnits | maxRawHits
  deriving DecidableEq

/-- The name of a limit, as a message spells it. -/
def SensitiveScanLimitName.name : SensitiveScanLimitName → String
  | .maxTextLength => "maxTextLength"
  | .maxEnabledWords => "maxEnabledWords"
  | .maxWorkUnits => "maxWorkUnits"
  | .maxRawHits => "maxRawHits"

/-- `SENSITIVE_SCAN_LIMITS`. -/
def SENSITIVE_SCAN_LIMITS : SensitiveScanLimitName → Nat
  | .maxTextLength => 50000
  | .maxEnabledWords => 500
  | .maxWorkUnits => 25000000
  | .maxRawHits => 1000

/-- What a scan throws: a `SensitiveScanLimitError`, a plain error, or the error of a schema. -/
inductive SensitiveScanError
  | limitExceeded (limitName : SensitiveScanLimitName) (limit observed : Nat) (message : String)
  | error (message : String)
  | zodError
  deriving DecidableEq

def assertWithinLimit (limitName : SensitiveScanLimitName) (observed : Nat) :
    Except SensitiveScanError Unit :=
  let limit := SENSITIVE_SCAN_LIMITS limitName
  if limit < observed then
    throw (.limitExceeded limitName limit observed ("Sensitive scan limit " ++ limitName.name ++
      " exceeded: observed " ++ toString observed ++ ", limit " ++ toString limit ++ "."))
  else pure ()

@[simp] theorem assertWithinLimit_eq_ok {limitName : SensitiveScanLimitName} {observed : Nat}
    {u : Unit} : assertWithinLimit limitName observed = .ok u ↔
      observed ≤ SENSITIVE_SCAN_LIMITS limitName := by
  rw [assertWithinLimit, Effect.last_guard_eq_ok, not_lt]

/-! ## Normalised texts -/

/-- The normal form of a text, grapheme by grapheme. -/
def normalizedBy (segments : List Char → List (List Char)) (nfkc : String → String)
    (text : List Char) : List Char :=
  (segments text).flatMap fun segment => (nfkc (String.ofList segment)).toList

/-- **The host of a scan**: the graphemes of a text, normal forms, and letters without their case.
A line break begins and ends what is normalised on its own, and has no other case. -/
structure ScanHost where
  segments : List Char → List (List Char)
  nfkc : String → String
  foldCase : Char → Char
  normalized_line : ∀ before after, normalizedBy segments nfkc (before ++ '\n' :: after) =
    normalizedBy segments nfkc before ++ '\n' :: normalizedBy segments nfkc after
  foldCase_line : ∀ c, foldCase c = foldCase '\n' → c = '\n'

/-- The units of a character. -/
def unitSize (c : Char) : Nat := (codeUnits (String.singleton c)).length

/-- `text.length`. -/
def unitLength (text : String) : Nat := (codeUnits text).length

structure OriginalRange where
  start : Nat
  «end» : Nat
  deriving DecidableEq

structure NormalizedText where
  ranges : List OriginalRange
  text : List Char

section Scan

variable (host : ScanHost)

/-- The ranges the units of normalised segments come from, the first of which stands at an index. -/
def rangesFrom (index : Nat) : List (List Char) → List OriginalRange
  | [] => []
  | segment :: segments =>
    let next := index + unitLength (String.ofList segment)
    List.replicate (unitLength (host.nfkc (String.ofList segment))) ⟨index, next⟩ ++
      rangesFrom next segments

def normalizeWithOriginalRanges (text : String) : NormalizedText where
  ranges := rangesFrom host 0 (host.segments text.toList)
  text := normalizedBy host.segments host.nfkc text.toList

/-! ## The scan -/

/-- The characters of a text between two places. -/
def sliceFrom (start «end» : Nat) : Nat → List Char → List Char
  | _, [] => []
  | index, c :: cs =>
    if start ≤ index ∧ index < «end» then c :: sliceFrom start «end» (index + unitSize c) cs
    else sliceFrom start «end» (index + unitSize c) cs

/-- The hits so far, and the ranges the word of an entry has been found in. -/
structure WordScan where
  hits : List SensitiveWordHit
  seenOriginalRanges : List OriginalRange

/-- One match of the word of an entry. -/
def scanMatch (text : String) (ranges : List OriginalRange) (entry : SensitiveWordRecord)
    (s : WordScan) (found : Nat × Nat) : Except SensitiveScanError WordScan :=
  match ranges[found.1]?, ranges[found.1 + found.2 - 1]? with
  | some first, some last =>
    let range : OriginalRange := ⟨first.start, last.end⟩
    if range ∈ s.seenOriginalRanges then pure s
    else do
      assertWithinLimit .maxRawHits (s.hits.length + 1)
      let hit : SensitiveWordHit :=
        { wordId := entry.id
          word := String.ofList (sliceFrom range.start range.end 0 text.toList)
          category := entry.category
          replacements := entry.replacements
          index := range.start
          length := range.end - range.start }
      return { hits := s.hits ++ [hit], seenOriginalRanges := range :: s.seenOriginalRanges }
  | _, _ => throw (.error "Sensitive-word normalization produced no input range.")

/-- The matches of the word of an entry, the hits of the entries before being there. -/
def scanEntry (text : String) (normalized : NormalizedText) (hits : List SensitiveWordHit)
    (entry : SensitiveWordRecord) : Except SensitiveScanError (List SensitiveWordHit) := do
  let normalizedWord := (host.nfkc entry.word).toList
  if normalizedWord = [] then return hits
  let found := Matching.matchesFrom host.foldCase unitSize normalizedWord 0 0 normalized.text
  let s ← found.foldlM (scanMatch text normalized.ranges entry) { hits, seenOriginalRanges := [] }
  return s.hits

/-- The hits that begin behind what is covered. -/
def nonOverlapping (coveredUntil : Nat) : List SensitiveWordHit → List SensitiveWordHit
  | [] => []
  | hit :: hits =>
    if hit.index < coveredUntil then nonOverlapping coveredUntil hits
    else hit :: nonOverlapping (hit.index + hit.length) hits

/-- `sensitiveWordHitSchema`. -/
def parseHit (hit : SensitiveWordHit) : Option SensitiveWordHit := do
  let wordId ← parseTrimmed hit.wordId
  let word ← parseTrimmed hit.word
  let replacements ← hit.replacements.mapM (parseTrimmedMost 100)
  if hit.length = 0 then none else return { hit with wordId, word, replacements }

/-- Whether hits stand in order, apart, and within the text. -/
def inOrder (textLength previousEnd : Nat) : List SensitiveWordHit → Bool
  | [] => true
  | hit :: hits => previousEnd ≤ hit.index ∧ hit.index + hit.length ≤ textLength ∧
      inOrder textLength (max previousEnd (hit.index + hit.length)) hits

/-- `sensitiveScanResultSchema.parse`. -/
def parseScanResult (result : SensitiveScanResult) :
    Except SensitiveScanError SensitiveScanResult := do
  let some hits := result.hits.mapM parseHit | throw .zodError
  if result.hitCount ≠ hits.length ∨ ¬ inOrder result.textLength 0 hits then throw .zodError
  return { result with hits }

/-- The entries whose words are searched, those of longer words first. -/
def enabledWords (lexicon : List SensitiveWordRecord) : List SensitiveWordRecord :=
  sortBy (fun a b => some ((unitLength (host.nfkc b.word) : Int) - unitLength (host.nfkc a.word)))
    (lexicon.filter fun row => row.status = .enabled ∧ Text.trim row.word ≠ "")

def scanSensitiveText (text : String) (lexicon : List SensitiveWordRecord) :
    Except SensitiveScanError SensitiveScanResult := do
  assertWithinLimit .maxTextLength (unitLength text)
  let enabled := enabledWords host lexicon
  assertWithinLimit .maxEnabledWords enabled.length
  assertWithinLimit .maxWorkUnits (unitLength text * enabled.length)
  let normalized := normalizeWithOriginalRanges host text
  let hits ← enabled.foldlM (scanEntry host text normalized) []
  let sorted := sortBy (fun a b => some (if a.index = b.index then (b.length : Int) - a.length
    else (a.index : Int) - b.index)) hits
  let nonOverlappingHits := nonOverlapping 0 sorted
  parseScanResult
    { schemaVersion := "sensitive-scan/v1"
      complete := true
      textLength := unitLength text
      hitCount := nonOverlappingHits.length
      hits := nonOverlappingHits }

/-! ## The check bar -/

/-- The units around a hit, with an ellipsis where the text goes on. -/
def snippetAround (text : String) (hit : SensitiveWordHit) : List Nat :=
  let start := hit.index - 12
  let «end» := min (unitLength text) (hit.index + hit.length + 12)
  (if 0 < start then codeUnits "…" else []) ++
    ((codeUnits text).drop start).take («end» - start) ++
    if «end» < unitLength text then codeUnits "…" else []

/-- `nonEmptyTrimmedStringSchema.max(200)`, on the units of a text. -/
def parseSnippet (units : List Nat) : Option (List Nat) :=
  let isSpace := fun unit => Text.isSpace (Char.ofNat unit)
  let trimmed := ((units.dropWhile isSpace).reverse.dropWhile isSpace).reverse
  if trimmed = [] ∨ 200 < trimmed.length then none else some trimmed

/-- `sensitiveCheckBarItemSchema`. -/
def parseCheckBarItem (item : SensitiveCheckBarItem) : Option SensitiveCheckBarItem := do
  let wordId ← parseTrimmed item.wordId
  let word ← parseTrimmed item.word
  let snippet ← parseSnippet item.snippet
  let replacements ← item.replacements.mapM parseTrimmed
  return { item with wordId, word, snippet, replacements }

/-- The items of hits, one for each word and place. -/
def checkBarItems (text : String) (seen : List (String × Nat)) :
    List SensitiveWordHit → List SensitiveCheckBarItem
  | [] => []
  | hit :: hits =>
    if (hit.wordId, hit.index) ∈ seen then checkBarItems text seen hits
    else
      { wordId := hit.wordId
        word := hit.word
        category := hit.category
        snippet := snippetAround text hit
        replacements := hit.replacements } ::
          checkBarItems text ((hit.wordId, hit.index) :: seen) hits

def buildSensitiveCheckBar (text : String) (scan : SensitiveScanResult) :
    Except SensitiveScanError SensitiveCheckBar := do
  if scan.hitCount = 0 then
    return { schemaVersion := "sensitive-check-bar/v1", status := .clear
             summary := "未检出违禁词。", items := [] }
  let items := checkBarItems text [] scan.hits
  let some parsed := items.mapM parseCheckBarItem | throw .zodError
  return { schemaVersion := "sensitive-check-bar/v1", status := .hits
           summary := "检出 " ++ toString items.length ++ " 处违禁词，请按建议替换后再交付。"
           items := parsed }

structure GenerationChainSensitiveCheckResult where
  schemaVersion : String
  scanner : String
  passed : Bool
  scan : SensitiveScanResult
  checkBar : SensitiveCheckBar

def runGenerationChainSensitiveCheck (text : String) (lexicon : List SensitiveWordRecord) :
    Except SensitiveScanError GenerationChainSensitiveCheckResult := do
  let scan ← scanSensitiveText host text lexicon
  let checkBar ← buildSensitiveCheckBar text scan
  return { schemaVersion := "generation-chain-sensitive-check/v1", scanner := "scanSensitiveText"
           passed := scan.hitCount = 0, scan, checkBar }

end Scan

/-! ## Clear scans -/

section Clear

variable {host : ScanHost} {text : String} {lexicon : List SensitiveWordRecord}
  {entry : SensitiveWordRecord} {normalized : NormalizedText} {hits hits' : List SensitiveWordHit}

/-- The word of an entry is no part of a normalised text; an empty one is not searched. -/
def AbsentFrom (host : ScanHost) (normalized : List Char) (entry : SensitiveWordRecord) : Prop :=
  (host.nfkc entry.word).toList = [] ∨
    ¬ (host.nfkc entry.word).toList.map host.foldCase <:+: normalized.map host.foldCase

/-- **Nothing is found in a text**: its budgets are kept, and no enabled word is part of it. -/
structure IsClear (host : ScanHost) (lexicon : List SensitiveWordRecord) (text : String) :
    Prop where
  length : unitLength text ≤ SENSITIVE_SCAN_LIMITS .maxTextLength
  enabled : (enabledWords host lexicon).length ≤ SENSITIVE_SCAN_LIMITS .maxEnabledWords
  work : unitLength text * (enabledWords host lexicon).length ≤ SENSITIVE_SCAN_LIMITS .maxWorkUnits
  words : ∀ entry ∈ enabledWords host lexicon,
    AbsentFrom host (normalizedBy host.segments host.nfkc text.toList) entry

/-- What every step keeps holds at the end of a loop. -/
theorem of_foldlM {ε σ α : Type} {f : σ → α → Except ε σ} {P : σ → Prop}
    (hstep : ∀ s a s', f s a = .ok s' → P s → P s') : ∀ {l : List α} {s s' : σ},
      l.foldlM f s = .ok s' → P s → P s'
  | [], s, s', hrun, hs => by
    rw [List.foldlM_nil, Effect.pure_eq_ok] at hrun
    exact hrun ▸ hs
  | a :: l, s, s', hrun, hs => by
    rw [List.foldlM_cons, Effect.bind_eq_ok] at hrun
    obtain ⟨next, hnext, hrun⟩ := hrun
    exact of_foldlM hstep hrun (hstep s a next hnext hs)

/-- Behind a match there is a hit, where none was there only if the word has not been found. -/
theorem scanMatch_ne_nil {ranges : List OriginalRange} {s s' : WordScan} {found : Nat × Nat}
    (h : scanMatch text ranges entry s found = .ok s')
    (hs : s.seenOriginalRanges = [] ∨ s.hits ≠ []) : s'.hits ≠ [] := by
  rw [scanMatch] at h
  split at h
  · dsimp only at h
    split at h
    · next hseen =>
      rw [Effect.pure_eq_ok] at h
      refine h ▸ hs.resolve_left fun hnone => ?_
      rw [hnone] at hseen
      exact absurd hseen List.not_mem_nil
    · simp only [Effect.bind_eq_ok, Effect.pure_eq_ok] at h
      obtain ⟨-, -, rfl⟩ := h
      simp
  · rw [Effect.throw_ne_ok] at h
    exact h.elim

/-- Hits are kept from entry to entry. -/
theorem scanEntry_ne_nil (h : scanEntry host text normalized hits entry = .ok hits')
    (hhits : hits ≠ []) : hits' ≠ [] := by
  rw [scanEntry] at h
  dsimp only at h
  split at h
  · rw [Effect.pure_eq_ok] at h
    exact h ▸ hhits
  · simp only [Effect.bind_eq_ok, Effect.pure_eq_ok] at h
    obtain ⟨s, hrun, rfl⟩ := h
    exact of_foldlM (P := fun s => s.hits ≠ [])
      (fun _ _ _ hstep hne => scanMatch_ne_nil hstep (.inr hne)) hrun hhits

/-- **A word that is absent leaves the hits, one that is not leaves some.** -/
theorem scanEntry_eq_nil : scanEntry host text normalized [] entry = .ok [] ↔
    AbsentFrom host normalized.text entry := by
  rw [scanEntry, AbsentFrom]
  dsimp only
  split
  · next hempty => exact iff_of_true rfl (.inl hempty)
  · next hword =>
    rw [← Matching.matchesFrom_eq_nil host.foldCase unitSize _ hword, or_iff_right hword]
    cases hfound : Matching.matchesFrom host.foldCase unitSize (host.nfkc entry.word).toList 0 0
        normalized.text with
    | nil => exact iff_of_true rfl rfl
    | cons found rest =>
      refine iff_of_false ?_ (List.cons_ne_nil _ _)
      simp only [List.foldlM_cons, Effect.bind_eq_ok, Effect.pure_eq_ok]
      rintro ⟨s, ⟨first, hfirst, hrest⟩, hnone⟩
      refine of_foldlM (P := fun s => s.hits ≠ []) ?_ hrest (scanMatch_ne_nil hfirst (.inl rfl)) hnone
      exact fun _ _ _ hstep hne => scanMatch_ne_nil hstep (.inr hne)

theorem foldlM_scanEntry_eq_nil : ∀ {entries : List SensitiveWordRecord},
    entries.foldlM (scanEntry host text normalized) [] = .ok [] ↔
      ∀ entry ∈ entries, AbsentFrom host normalized.text entry
  | [] => iff_of_true rfl (by simp)
  | entry :: entries => by
    rw [List.foldlM_cons, Effect.bind_eq_ok, List.forall_mem_cons, ← foldlM_scanEntry_eq_nil,
      ← scanEntry_eq_nil]
    constructor
    · rintro ⟨hits, hentry, hrest⟩
      obtain rfl : hits = [] := by
        by_contra hne
        exact of_foldlM (P := fun hits => hits ≠ [])
          (fun _ _ _ hstep hne => scanEntry_ne_nil hstep hne) hrest hne rfl
      exact ⟨hentry, hrest⟩
    · exact fun h => ⟨[], h.1, h.2⟩

theorem nonOverlapping_eq_nil : nonOverlapping 0 hits = [] ↔ hits = [] := by
  cases hits with
  | nil => exact iff_of_true rfl rfl
  | cons hit hits =>
    rw [nonOverlapping, if_neg (Nat.not_lt_zero _)]
    exact iff_of_false (List.cons_ne_nil _ _) (List.cons_ne_nil _ _)

/-- The count of a result is the one it was given. -/
theorem hitCount_of_parse {result parsed : SensitiveScanResult}
    (h : parseScanResult result = .ok parsed) : parsed.hitCount = result.hitCount := by
  rw [parseScanResult] at h
  split at h
  · rw [Effect.guard_eq_ok, Effect.pure_eq_ok] at h
    exact h.2 ▸ rfl
  · rw [Effect.throw_ne_ok] at h
    exact h.elim

/-- **A scan without hits** is one of a text in which nothing is found. -/
theorem scanSensitiveText_clear : (∃ scan, scanSensitiveText host text lexicon = .ok scan ∧
    scan.hitCount = 0) ↔ IsClear host lexicon text := by
  simp only [scanSensitiveText, Effect.bind_eq_ok, assertWithinLimit_eq_ok]
  constructor
  · rintro ⟨scan, ⟨-, hlength, -, henabled, -, hwork, hits, hrun, hparse⟩, hcount⟩
    have hnone := List.length_eq_zero_iff.mp ((hitCount_of_parse hparse).symm.trans hcount)
    have hsorted := nonOverlapping_eq_nil.mp hnone
    obtain rfl : hits = [] := List.nil_perm.mp (hsorted ▸ sortBy_perm _ hits)
    exact ⟨hlength, henabled, hwork, foldlM_scanEntry_eq_nil.mp hrun⟩
  · intro h
    refine ⟨_, ⟨(), h.length, (), h.enabled, (), h.work, [], ?_, rfl⟩, rfl⟩
    exact foldlM_scanEntry_eq_nil.mpr h.words

/-- **A check passes** where nothing is found. -/
theorem passed_iff : (∃ check, runGenerationChainSensitiveCheck host text lexicon = .ok check ∧
    check.passed = true) ↔ IsClear host lexicon text := by
  rw [← scanSensitiveText_clear]
  simp only [runGenerationChainSensitiveCheck, Effect.bind_eq_ok, Effect.pure_eq_ok]
  constructor
  · rintro ⟨_, ⟨scan, hscan, checkBar, -, rfl⟩, hpassed⟩
    exact ⟨scan, hscan, of_decide_eq_true hpassed⟩
  · rintro ⟨scan, hscan, hcount⟩
    have hbar : ∃ checkBar, buildSensitiveCheckBar text scan = .ok checkBar := by
      rw [buildSensitiveCheckBar, if_pos hcount]
      exact ⟨_, rfl⟩
    obtain ⟨checkBar, hbar⟩ := hbar
    exact ⟨_, ⟨scan, hscan, checkBar, hbar, rfl⟩, decide_eq_true hcount⟩

end Clear

/-! ## Joined texts -/

section Joined

variable {host : ScanHost} {parts parts' : List String} {lexicon lexicon' : List SensitiveWordRecord}
  {entry : SensitiveWordRecord}

/-- A text is blank when white space is all there is. -/
theorem trim_eq_empty {text : String} :
    Text.trim text = "" ↔ ∀ c ∈ text.toList, Text.isSpace c = true := by
  have htrim : Text.trim text =
      String.ofList ((text.toList.dropWhile Text.isSpace).rdropWhile Text.isSpace) := rfl
  rw [htrim, String.ofList_eq_empty_iff, List.rdropWhile_eq_nil_iff]
  constructor
  · intro h c hc
    rw [← List.takeWhile_append_dropWhile (p := Text.isSpace) (l := text.toList),
      List.mem_append] at hc
    exact hc.elim List.mem_takeWhile_imp (h c)
  · exact fun h c hc => h c ((List.dropWhile_suffix _).subset hc)

/-- Joined texts are blank when each is. -/
theorem trim_join : ∀ {parts : List String}, Text.trim ("\n".intercalate parts) = "" ↔
    ∀ part ∈ parts, Text.trim part = ""
  | [] => by simp [trim_eq_empty]
  | [part] => by simp
  | part :: next :: parts => by
    have hrest : Text.trim ("\n".intercalate (next :: parts)) = "" ↔
        ∀ part ∈ next :: parts, Text.trim part = "" := trim_join
    have hline : Text.isSpace '\n' = true := by decide
    rw [List.forall_mem_cons, ← hrest, String.intercalate_cons_cons, trim_eq_empty, trim_eq_empty,
      trim_eq_empty]
    simp [or_imp, forall_and, hline]

theorem unitLength_append {s t : String} : unitLength (s ++ t) = unitLength s + unitLength t := by
  simp [unitLength, codeUnits]

/-- The length of joined texts, each with the line break behind it but the last. -/
theorem unitLength_join : ∀ {parts : List String}, parts ≠ [] →
    unitLength ("\n".intercalate parts) + 1 = (parts.map fun part => unitLength part + 1).sum
  | [], hne => absurd rfl hne
  | [part], _ => by simp
  | part :: next :: parts, _ => by
    have hrest := unitLength_join (List.cons_ne_nil next parts)
    have hline : unitLength "\n" = 1 := by decide
    rw [String.intercalate_cons_cons, unitLength_append, unitLength_append, hline, List.map_cons,
      List.sum_cons, ← hrest]
    omega

/-- The letters of joined texts are joined letters. -/
theorem letters_join : ∀ {parts : List String}, parts ≠ [] →
    (normalizedBy host.segments host.nfkc ("\n".intercalate parts).toList).map host.foldCase =
      [host.foldCase '\n'].intercalate (parts.map fun part =>
        (normalizedBy host.segments host.nfkc part.toList).map host.foldCase)
  | [], hne => absurd rfl hne
  | [part], _ => by simp
  | part :: next :: parts, _ => by
    have hjoin : ("\n".intercalate (part :: next :: parts)).toList =
        part.toList ++ '\n' :: ("\n".intercalate (next :: parts)).toList := by
      rw [String.intercalate_cons_cons]
      simp
    rw [hjoin, host.normalized_line, List.map_append, List.map_cons,
      letters_join (List.cons_ne_nil next parts)]
    simp

/-- **A word without a line break** is absent from joined texts when it is from each. -/
theorem absentFrom_join (hne : parts ≠ []) (hline : '\n' ∉ (host.nfkc entry.word).toList) :
    AbsentFrom host (normalizedBy host.segments host.nfkc ("\n".intercalate parts).toList) entry ↔
      ∀ part ∈ parts, AbsentFrom host (normalizedBy host.segments host.nfkc part.toList) entry := by
  have hmark : host.foldCase '\n' ∉ (host.nfkc entry.word).toList.map host.foldCase := by
    intro hmem
    obtain ⟨c, hc, hfold⟩ := List.mem_map.mp hmem
    exact hline (host.foldCase_line c hfold ▸ hc)
  have hpieces : (parts.map fun part =>
      (normalizedBy host.segments host.nfkc part.toList).map host.foldCase) ≠ [] :=
    mt List.map_eq_nil_iff.mp hne
  simp only [AbsentFrom, letters_join hne, Matching.infix_intercalate hmark hpieces,
    List.mem_map, exists_exists_and_eq_and]
  by_cases hempty : (host.nfkc entry.word).toList = [] <;> simp [hempty]

/-- **What is found does not see the order** of joined texts and of the lexicon, where no enabled
word holds a line break. -/
theorem IsClear.reordered (hlines : ∀ row ∈ lexicon, row.status = .enabled →
      '\n' ∉ (host.nfkc row.word).toList) (hne : parts ≠ []) (hparts : parts'.Perm parts)
    (hlexicon : lexicon'.Perm lexicon) (h : IsClear host lexicon ("\n".intercalate parts)) :
    IsClear host lexicon' ("\n".intercalate parts') := by
  have hne' : parts' ≠ [] := fun hnone => hne (List.nil_perm.mp (hnone ▸ hparts))
  have hlength : unitLength ("\n".intercalate parts') = unitLength ("\n".intercalate parts) := by
    have hsum := (hparts.map fun part => unitLength part + 1).sum_nat
    rw [← unitLength_join hne, ← unitLength_join hne'] at hsum
    exact Nat.succ.inj hsum
  have henabled : (enabledWords host lexicon').Perm (enabledWords host lexicon) :=
    (sortBy_perm _ _).trans ((hlexicon.filter _).trans (sortBy_perm _ _).symm)
  refine ⟨hlength ▸ h.length, henabled.length_eq ▸ h.enabled,
    hlength ▸ henabled.length_eq ▸ h.work, fun entry hentry => ?_⟩
  have hentry := henabled.mem_iff.mp hentry
  have hline : '\n' ∉ (host.nfkc entry.word).toList := by
    obtain ⟨hmem, hstatus⟩ := List.mem_filter.mp ((sortBy_perm _ _).mem_iff.mp hentry)
    exact hlines entry hmem (of_decide_eq_true hstatus).1
  have habsent := h.words entry hentry
  rw [absentFrom_join hne hline] at habsent
  rw [absentFrom_join hne' hline]
  exact fun part hpart => habsent part (hparts.mem_iff.mp hpart)

end Joined

end MeiyeAgent
