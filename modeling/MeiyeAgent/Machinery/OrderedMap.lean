import Mathlib.Data.List.Nodup
import Mathlib.Data.List.Sort

/-!
# Machinery/OrderedMap — a map that remembers the order of insertion

Setting a key that is present replaces its value where it stands; setting a new key appends.  The
keys are distinct by construction, so an entry is read off by its key and nothing else: `mem_set`
says what a write leaves, and every reading lemma follows from it.
-/

/-- **A map in insertion order.** -/
structure OrderedMap (κ ν : Type) where
  entries : List (κ × ν)
  nodup : (entries.map Prod.fst).Nodup
  deriving DecidableEq

namespace OrderedMap

variable {κ ν : Type} [DecidableEq κ] {m : OrderedMap κ ν} {k k' : κ} {v v' : ν}

/-- The map with no entries. -/
def empty : OrderedMap κ ν := ⟨[], List.nodup_nil⟩

def get? (m : OrderedMap κ ν) (k : κ) : Option ν := (m.entries.find? (·.1 = k)).map (·.2)

def values (m : OrderedMap κ ν) : List ν := m.entries.map (·.2)

/-- The entries with `k` set to `v`. -/
def setIn (k : κ) (v : ν) : List (κ × ν) → List (κ × ν)
  | [] => [(k, v)]
  | (k', v') :: es => if k' = k then (k, v) :: es else (k', v') :: setIn k v es

theorem keys_setIn (k : κ) (v : ν) : ∀ es : List (κ × ν), (setIn k v es).map Prod.fst =
    if k ∈ es.map Prod.fst then es.map Prod.fst else es.map Prod.fst ++ [k]
  | [] => rfl
  | (k', v') :: es => by
    by_cases h : k' = k
    · simp [setIn, h]
    · have h' : k ≠ k' := fun hk => h hk.symm
      rw [setIn, if_neg h, List.map_cons, List.map_cons, keys_setIn k v es]
      by_cases hmem : k ∈ es.map Prod.fst
      · rw [if_pos hmem, if_pos (List.mem_cons_of_mem _ hmem)]
      · rw [if_neg hmem, if_neg (fun hk => (List.mem_cons.mp hk).elim h' hmem)]
        rfl

/-- `Map.prototype.set`. -/
def set (m : OrderedMap κ ν) (k : κ) (v : ν) : OrderedMap κ ν where
  entries := setIn k v m.entries
  nodup := by
    rw [keys_setIn]
    split
    · exact m.nodup
    · next h => exact List.nodup_append.mpr ⟨m.nodup, List.nodup_singleton k, fun a ha b hb hab =>
        h (List.mem_singleton.mp hb ▸ hab ▸ ha)⟩

/-- Several writes, first to last. -/
def setAll (m : OrderedMap κ ν) (es : List (κ × ν)) : OrderedMap κ ν :=
  es.foldl (fun m e => m.set e.1 e.2) m

/-- The first `limit` of the entries that pass, in an order. -/
def pick (m : OrderedMap κ ν) (passes : κ × ν → Bool) (precedes : κ × ν → κ × ν → Bool)
    (limit : Nat) : List (κ × ν) :=
  ((m.entries.filter passes).insertionSort fun e e' => precedes e e').take limit

/-- `Map.prototype.delete`. -/
def erase (m : OrderedMap κ ν) (k : κ) : OrderedMap κ ν where
  entries := m.entries.filter (·.1 ≠ k)
  nodup := m.nodup.sublist (List.filter_sublist.map _)

/-! ## What a write leaves -/

theorem mem_setIn {x : κ × ν} : ∀ {es : List (κ × ν)}, (es.map Prod.fst).Nodup →
    (x ∈ setIn k v es ↔ x = (k, v) ∨ x ∈ es ∧ x.1 ≠ k)
  | [], _ => by simp [setIn]
  | (k', v') :: es, h => by
    obtain ⟨hk', hes⟩ := List.nodup_cons.mp h
    by_cases heq : k' = k
    · subst heq
      rw [setIn, if_pos rfl, List.mem_cons, List.mem_cons]
      refine or_congr_right ⟨fun hx => ⟨.inr hx, fun hxk => ?_⟩, fun hx => ?_⟩
      · exact hk' (List.mem_map.mpr ⟨x, hx, hxk⟩)
      · exact hx.1.resolve_left fun hxe => hx.2 (congrArg Prod.fst hxe)
    · rw [setIn, if_neg heq, List.mem_cons, List.mem_cons, mem_setIn hes]
      constructor
      · rintro (rfl | rfl | ⟨hx, hne⟩)
        · exact .inr ⟨.inl rfl, heq⟩
        · exact .inl rfl
        · exact .inr ⟨.inr hx, hne⟩
      · rintro (rfl | ⟨rfl | hx, hne⟩)
        · exact .inr (.inl rfl)
        · exact .inl rfl
        · exact .inr (.inr ⟨hx, hne⟩)

/-- **The entries after a write.** -/
theorem mem_set {x : κ × ν} : x ∈ (m.set k v).entries ↔ x = (k, v) ∨ x ∈ m.entries ∧ x.1 ≠ k :=
  mem_setIn m.nodup

omit [DecidableEq κ] in
/-- Two entries of one key are one entry. -/
theorem entry_unique {x y : κ × ν} (hx : x ∈ m.entries) (hy : y ∈ m.entries) (h : x.1 = y.1) :
    x = y := List.inj_on_of_nodup_map m.nodup hx hy h

/-- **A reading is an entry.** -/
theorem get?_eq_some : m.get? k = some v ↔ (k, v) ∈ m.entries := by
  rw [get?, Option.map_eq_some_iff]
  constructor
  · rintro ⟨⟨k', v'⟩, hfind, rfl⟩
    obtain rfl : k' = k := by simpa using List.find?_some hfind
    exact List.mem_of_find?_eq_some hfind
  · intro hmem
    have hsome : (m.entries.find? (·.1 = k)).isSome := List.find?_isSome.mpr ⟨_, hmem, by simp⟩
    obtain ⟨x, hx⟩ := Option.isSome_iff_exists.mp hsome
    have hkey : x.1 = k := by simpa using List.find?_some hx
    exact ⟨x, hx, congrArg Prod.snd (entry_unique (List.mem_of_find?_eq_some hx) hmem hkey)⟩

theorem get?_eq_none : m.get? k = none ↔ ∀ v, (k, v) ∉ m.entries := by
  rw [Option.eq_none_iff_forall_ne_some]
  exact forall_congr' fun v => not_congr get?_eq_some

@[simp] theorem get?_empty : (empty : OrderedMap κ ν).get? k = none := rfl

@[simp] theorem get?_set_self : (m.set k v).get? k = some v :=
  get?_eq_some.mpr (mem_set.mpr (.inl rfl))

/-- A write at another key is not seen. -/
theorem get?_set_ne (h : k' ≠ k) : (m.set k v).get? k' = m.get? k' := by
  rcases hm : m.get? k' with _ | w
  · rw [get?_eq_none] at hm ⊢
    intro w hw
    rcases mem_set.mp hw with heq | ⟨hw, -⟩
    · exact h (congrArg Prod.fst heq)
    · exact hm w hw
  · exact get?_eq_some.mpr (mem_set.mpr (.inr ⟨get?_eq_some.mp hm, h⟩))

theorem get?_set : (m.set k v).get? k' = if k' = k then some v else m.get? k' := by
  split
  · next h => rw [h, get?_set_self]
  · next h => exact get?_set_ne h

/-- What is found after a write is what was written, or was there under another key. -/
theorem get?_set_eq_some {w : ν} (h : (m.set k v).get? k' = some w) :
    k' = k ∧ w = v ∨ k' ≠ k ∧ m.get? k' = some w := by
  rw [get?_set] at h
  split at h
  · next heq => exact .inl ⟨heq, (Option.some.inj h).symm⟩
  · next hne => exact .inr ⟨hne, h⟩

/-- What holds of everything there and of what is written holds of everything after the write. -/
theorem forall_get?_set {P : κ → ν → Prop} (hnew : P k v) (h : ∀ k' w, m.get? k' = some w → P k' w) :
    ∀ k' w, (m.set k v).get? k' = some w → P k' w := by
  intro k' w hw
  obtain ⟨rfl, rfl⟩ | ⟨-, hw⟩ := get?_set_eq_some hw
  · exact hnew
  · exact h k' w hw

/-- A write under a new key hides nothing. -/
theorem get?_set_of_none {w : ν} (hnew : m.get? k = none) (h : m.get? k' = some w) :
    (m.set k v).get? k' = some w := by
  rw [get?_set_ne, h]
  rintro rfl
  cases hnew.symm.trans h

variable {es : List (κ × ν)}

/-- Writes at other keys are not seen. -/
theorem get?_setAll_of_not_mem (h : ∀ e ∈ es, e.1 ≠ k) : (m.setAll es).get? k = m.get? k := by
  induction es generalizing m with
  | nil => rfl
  | cons e es ih =>
    rw [setAll, List.foldl_cons]
    have hset : (m.set e.1 e.2).get? k = m.get? k :=
      get?_set_ne fun heq => h e List.mem_cons_self heq.symm
    rw [← hset]
    exact ih fun e' he' => h e' (List.mem_cons_of_mem e he')

/-- Of writes at distinct keys, each is read back. -/
theorem get?_setAll_of_mem (hnodup : (es.map Prod.fst).Nodup) (h : (k, v) ∈ es) :
    (m.setAll es).get? k = some v := by
  induction es generalizing m with
  | nil => exact absurd h List.not_mem_nil
  | cons e es ih =>
    obtain ⟨he, hes⟩ := List.nodup_cons.mp hnodup
    rw [setAll, List.foldl_cons]
    rcases List.mem_cons.mp h with rfl | h
    · have hnone : ∀ e' ∈ es, e'.1 ≠ k := fun e' he' heq => he (List.mem_map.mpr ⟨e', he', heq⟩)
      have hself : (m.set k v).get? k = some v := get?_set_self
      rw [← hself]
      exact get?_setAll_of_not_mem hnone
    · exact ih hes h

/-- A deleted key is gone, and the others are as they were. -/
theorem get?_erase : (m.erase k).get? k' = if k' = k then none else m.get? k' := by
  ext v
  rw [get?_eq_some, erase, List.mem_filter]
  split
  · next h => simp [h]
  · next h => simp [h, get?_eq_some]

theorem mem_values_of_get? (h : m.get? k = some v) : v ∈ m.values :=
  List.mem_map.mpr ⟨_, get?_eq_some.mp h, rfl⟩

/-- A value is read under some key. -/
theorem mem_values : v ∈ m.values ↔ ∃ k, m.get? k = some v := by
  constructor
  · intro h
    obtain ⟨⟨k, v⟩, hentry, rfl⟩ := List.mem_map.mp h
    exact ⟨k, get?_eq_some.mpr hentry⟩
  · exact fun ⟨_, h⟩ => mem_values_of_get? h

/-- **A new key is appended.** -/
theorem entries_set_of_none (h : m.get? k = none) :
    (m.set k v).entries = m.entries ++ [(k, v)] := by
  have hin : ∀ {es : List (κ × ν)}, (∀ e ∈ es, e.1 ≠ k) → setIn k v es = es ++ [(k, v)] := by
    intro es
    induction es with
    | nil => exact fun _ => rfl
    | cons e es ih =>
      intro hne
      rw [setIn, if_neg (hne e List.mem_cons_self),
        ih fun e he => hne e (List.mem_cons_of_mem _ he), List.cons_append]
  exact hin fun e he heq => get?_eq_none.mp h e.2 (heq ▸ he)

theorem values_set_of_none (h : m.get? k = none) : (m.set k v).values = m.values ++ [v] := by
  rw [values, values, entries_set_of_none h, List.map_append]
  rfl

/-- What is read after several writes was written, or was there. -/
theorem of_get?_setAll (h : (m.setAll es).get? k = some v) : (k, v) ∈ es ∨ m.get? k = some v := by
  induction es generalizing m with
  | nil => exact .inr h
  | cons e es ih =>
    rw [setAll, List.foldl_cons] at h
    rcases ih h with hmem | hget
    · exact .inl (List.mem_cons_of_mem e hmem)
    · rw [get?_set] at hget
      split at hget
      · next heq =>
        obtain rfl := Option.some.inj hget
        exact .inl (heq ▸ List.mem_cons_self)
      · exact .inr hget

/-- What has been written is there, whatever is written over it. -/
theorem isSome_get?_setAll (h : (m.get? k).isSome ∨ ∃ v, (k, v) ∈ es) :
    ((m.setAll es).get? k).isSome := by
  induction es generalizing m with
  | nil => exact h.resolve_right fun ⟨_, hmem⟩ => List.not_mem_nil hmem
  | cons e es ih =>
    rw [setAll, List.foldl_cons]
    refine ih ?_
    rw [get?_set]
    split
    · exact .inl rfl
    · next hne =>
      rcases h with h | ⟨v, hmem⟩
      · exact .inl h
      · rcases List.mem_cons.mp hmem with rfl | hmem
        · exact absurd rfl hne
        · exact .inr ⟨v, hmem⟩

/-- Entries at distinct keys, written to the empty map, are its entries. -/
theorem entries_setAll_empty (hnodup : (es.map Prod.fst).Nodup) :
    ((empty : OrderedMap κ ν).setAll es).entries = es := by
  have hin : ∀ {es : List (κ × ν)} {m : OrderedMap κ ν}, (es.map Prod.fst).Nodup →
      (∀ e ∈ es, ∀ v, (e.1, v) ∉ m.entries) → (m.setAll es).entries = m.entries ++ es := by
    intro es
    induction es with
    | nil => exact fun _ _ => (List.append_nil _).symm
    | cons e es ih =>
      intro m hnodup hnew
      obtain ⟨he, hes⟩ := List.nodup_cons.mp hnodup
      have hentries : (m.set e.1 e.2).entries = m.entries ++ [e] :=
        entries_set_of_none (get?_eq_none.mpr (hnew e List.mem_cons_self))
      rw [setAll, List.foldl_cons]
      refine (ih hes fun e' he' v hv => ?_).trans ?_
      · rw [hentries, List.mem_append, List.mem_singleton] at hv
        rcases hv with hv | rfl
        · exact hnew e' (List.mem_cons_of_mem e he') v hv
        · exact he (List.mem_map.mpr ⟨e', he', rfl⟩)
      · rw [hentries, List.append_assoc, List.singleton_append]
  exact hin hnodup fun _ _ _ hv => List.not_mem_nil hv

/-- **A loop that sets new keys and fails at a present one** has set them all, and the keys are
distinct. -/
theorem foldlM_set_eq_ok {ε α : Type} {step : OrderedMap κ ν → α → Except ε (OrderedMap κ ν)}
    {key : α → κ} {value : α → ν} {good : α → Prop}
    (hstep : ∀ m a m', step m a = .ok m' ↔
      good a ∧ m.get? (key a) = none ∧ m.set (key a) (value a) = m')
    {as : List α} {m' : OrderedMap κ ν} : as.foldlM step m = .ok m' ↔
      (∀ a ∈ as, good a ∧ m.get? (key a) = none) ∧ (as.map key).Nodup ∧
        m.setAll (as.map fun a => (key a, value a)) = m' := by
  induction as generalizing m with
  | nil => simp [setAll, pure, Except.pure]
  | cons a as ih =>
    have hbind : (a :: as).foldlM step m = .ok m' ↔
        ∃ next, step m a = .ok next ∧ as.foldlM step next = .ok m' := by
      rw [List.foldlM_cons]
      cases step m a <;> simp [bind, Except.bind]
    have hall : m.setAll ((a :: as).map fun a => (key a, value a)) =
        (m.set (key a) (value a)).setAll (as.map fun a => (key a, value a)) := rfl
    rw [hbind, hall, List.map_cons, List.nodup_cons, List.forall_mem_cons]
    constructor
    · rintro ⟨next, hnext, hrest⟩
      obtain ⟨hgood, hnone, rfl⟩ := (hstep _ _ _).mp hnext
      obtain ⟨hrest, hnodup, hset⟩ := ih.mp hrest
      have hnew : ∀ b ∈ as, key b ≠ key a ∧ m.get? (key b) = none := by
        intro b hb
        have hget := (hrest b hb).2
        rw [get?_set] at hget
        split at hget
        · exact nomatch hget
        · next hne => exact ⟨hne, hget⟩
      refine ⟨⟨⟨hgood, hnone⟩, fun b hb => ⟨(hrest b hb).1, (hnew b hb).2⟩⟩,
        ⟨fun hmem => ?_, hnodup⟩, hset⟩
      obtain ⟨b, hb, hkey⟩ := List.mem_map.mp hmem
      exact (hnew b hb).1 hkey
    · rintro ⟨⟨⟨hgood, hnone⟩, hrest⟩, ⟨hnotin, hnodup⟩, hset⟩
      refine ⟨_, (hstep _ _ _).mpr ⟨hgood, hnone, rfl⟩, ih.mpr ⟨fun b hb => ?_, hnodup, hset⟩⟩
      have hne : key b ≠ key a := fun hkey => hnotin (List.mem_map.mpr ⟨b, hb, hkey⟩)
      exact ⟨(hrest b hb).1, by rw [get?_set, if_neg hne, (hrest b hb).2]⟩

/-- **A key that is present is written in place.** -/
theorem values_set_of_some {old : ν} (h : m.get? k = some old) : ∃ before after,
    m.values = before ++ old :: after ∧ ∀ v, (m.set k v).values = before ++ v :: after := by
  obtain ⟨before, after, hentries⟩ := List.append_of_mem (get?_eq_some.mp h)
  have hnodup := m.nodup
  rw [hentries, List.map_append, List.map_cons] at hnodup
  have hin (v : ν) : ∀ {es : List (κ × ν)}, k ∉ es.map Prod.fst →
      setIn k v (es ++ (k, old) :: after) = es ++ (k, v) :: after := by
    intro es
    induction es with
    | nil => exact fun _ => if_pos rfl
    | cons e es ih =>
      intro hk
      rw [List.map_cons, List.mem_cons, not_or] at hk
      rw [List.cons_append, setIn, if_neg (Ne.symm hk.1), ih hk.2, List.cons_append]
  have hbefore : k ∉ before.map Prod.fst := fun hk =>
    (List.nodup_append.mp hnodup).2.2 k hk k List.mem_cons_self rfl
  refine ⟨before.map (·.2), after.map (·.2), ?_, fun v => ?_⟩
  · rw [values, hentries, List.map_append, List.map_cons]
  · have hset : (m.set k v).entries = before ++ (k, v) :: after := by
      rw [← hin v hbefore, ← hentries]
      rfl
    rw [values, hset, List.map_append, List.map_cons]

/-- Writing back what is there changes nothing. -/
theorem set_get? (h : m.get? k = some v) : m.set k v = m := by
  have hin : ∀ {es : List (κ × ν)}, (es.map Prod.fst).Nodup → (k, v) ∈ es → setIn k v es = es := by
    intro es
    induction es with
    | nil => exact fun _ hmem => absurd hmem List.not_mem_nil
    | cons e es ih =>
      obtain ⟨k', v'⟩ := e
      intro hnodup hmem
      obtain ⟨hk', hes⟩ := List.nodup_cons.mp hnodup
      rcases List.mem_cons.mp hmem with heq | hmem
      · obtain ⟨rfl, rfl⟩ := Prod.mk.inj heq
        rw [setIn, if_pos rfl]
      · have hne : k' ≠ k := fun h => hk' (List.mem_map.mpr ⟨_, hmem, h.symm⟩)
        rw [setIn, if_neg hne, ih hes hmem]
  obtain ⟨entries, nodup⟩ := m
  simp only [set, mk.injEq]
  exact hin nodup (get?_eq_some.mp h)

/-! ## Entries picked in an order -/

section Pick

variable {passes : κ × ν → Bool} {precedes : κ × ν → κ × ν → Bool} {limit : Nat}

theorem of_mem_pick {e : κ × ν} (h : e ∈ m.pick passes precedes limit) :
    m.get? e.1 = some e.2 ∧ passes e = true := by
  have hmem := (List.perm_insertionSort _ _).mem_iff.mp (List.mem_of_mem_take h)
  obtain ⟨hentry, hpasses⟩ := List.mem_filter.mp hmem
  exact ⟨get?_eq_some.mpr hentry, hpasses⟩

omit [DecidableEq κ] in
theorem nodup_pick (f : ν → ν) :
    (((m.pick passes precedes limit).map fun e => (e.1, f e.2)).map Prod.fst).Nodup := by
  rw [List.map_map]
  have hsub : ((m.entries.filter passes).map Prod.fst).Nodup :=
    m.nodup.sublist (List.filter_sublist.map _)
  have hsorted := ((List.perm_insertionSort (fun e e' => precedes e e')
    (m.entries.filter passes)).map Prod.fst).nodup_iff.mpr hsub
  exact hsorted.sublist ((List.take_sublist limit _).map _)

/-- **What is written over the entries picked** is read back, and the others are as they were. -/
theorem get?_setAll_pick (f : ν → ν) (k : κ) :
    (∃ v, (k, v) ∈ m.pick passes precedes limit ∧
      (m.setAll ((m.pick passes precedes limit).map fun e => (e.1, f e.2))).get? k =
        some (f v)) ∨
      (∀ v, (k, v) ∉ m.pick passes precedes limit) ∧
        (m.setAll ((m.pick passes precedes limit).map fun e => (e.1, f e.2))).get? k =
          m.get? k := by
  by_cases h : ∃ v, (k, v) ∈ m.pick passes precedes limit
  · obtain ⟨v, hv⟩ := h
    exact .inl ⟨v, hv, get?_setAll_of_mem (nodup_pick f) (List.mem_map.mpr ⟨_, hv, rfl⟩)⟩
  · refine .inr ⟨not_exists.mp h, get?_setAll_of_not_mem fun e he heq => ?_⟩
    obtain ⟨⟨k', v⟩, hv, rfl⟩ := List.mem_map.mp he
    exact h ⟨v, heq ▸ hv⟩

end Pick

end OrderedMap
