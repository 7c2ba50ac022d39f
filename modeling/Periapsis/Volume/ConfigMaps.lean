import Mathlib.Data.List.Infix
import Mathlib.Data.List.Nodup
import Periapsis.Node.Paths

/-!
# Volumes filled from ConfigMaps and Secrets

The keys of a ConfigMap or a Secret are written to files, each to the path that the items of the
volume give it, or to one of its own name.
-/

namespace Periapsis.Volume

open List Option Prod

/-- A place in the directory of a volume, by the names that lead to it from there. -/
abbrev Place := List String

/-- The path of an item, which stays in the directory it is joined to: the API server admits none
with two dots. -/
structure ItemPath where
  text : String
  inside : ∀ dir, Node.join dir [text] = dir ++ Node.join [] [text]

def ItemPath.ofText (text : String) (h : ".." ∉ Node.splitPath text) : ItemPath :=
  ⟨text, Node.join_of_descending h⟩

/-- The place that `filepath.Join` makes of the path; another path may have it too. -/
def ItemPath.place (path : ItemPath) : Place :=
  Node.join [] [path.text]

/-- What is in the directory of a volume. -/
structure VolumeDir where
  files : List (Place × List UInt8) := []
  dirs : List Place := [[]]
  deriving DecidableEq

def VolumeDir.file (d : VolumeDir) (p : Place) : Option (List UInt8) :=
  d.files.lookup p

def VolumeDir.mkdirAll (p : Place) (d : VolumeDir) : Option VolumeDir :=
  if ∃ q ∈ p.inits, (d.file q).isSome then none else some { d with dirs := p.inits ++ d.dirs }

def VolumeDir.writeFile (p : Place) (data : List UInt8) (d : VolumeDir) : Option VolumeDir :=
  if p ∈ d.dirs then none else some { d with files := (p, data) :: d.files }

/-- Make the directories, and write the file if there are data. -/
def VolumeDir.writeKey (data : Option (List UInt8)) (p : Place) (d : VolumeDir) :
    Option VolumeDir :=
  match d.mkdirAll p.dropLast, data with
  | none, _ => none
  | some d, some data => d.writeFile p data
  | some d, none => some d

def writeKeys (content : String → Option (List UInt8)) :
    List (String × Place) → VolumeDir → Option VolumeDir
  | [], d => some d
  | item :: walk, d => (d.writeKey (content item.1) item.2).bind (writeKeys content walk)

/-- The map of the items, in which later ones win. -/
def keyToPath {α : Type} (items : List (String × α)) : List (String × α) :=
  items.foldl (fun m item => m.filter (fun e => e.1 ≠ item.1) ++ [item]) []

def located (items : List (String × ItemPath)) : List (String × Place) :=
  items.map fun item => (item.1, item.2.place)

/-- The keys written and their places, in no order. Without items a key names its file: the API
server admits neither slashes nor dots alone in keys. -/
def plan (keys : List String) (items : List (String × ItemPath)) : List (String × Place) :=
  if items = [] then keyToPath (keys.map fun key => (key, [key])) else located (keyToPath items)

/-- The data of a ConfigMap, which may be missing. -/
structure ConfigMap where
  data : Option (List (String × List UInt8)) := none
  binaryData : List (String × List UInt8) := []

variable (cm : ConfigMap)

def ConfigMap.dataKeys : List String :=
  (cm.data.getD []).map fst

def ConfigMap.plan (items : List (String × ItemPath)) : List (String × Place) :=
  Volume.plan (cm.dataKeys ++ cm.binaryData.map fst) items

def ConfigMap.content (key : String) : Option (List UInt8) :=
  ((cm.data.getD []).lookup key).or (cm.binaryData.lookup key)

/-- What a refresh writes: an empty file for a missing key. -/
def ConfigMap.refreshed (key : String) : Option (List UInt8) :=
  some ((cm.content key).getD [])

def ConfigMap.projected (key : String) : Option (List UInt8) :=
  some ((cm.binaryData.lookup key).getD (((cm.data.getD []).lookup key).getD []))

def writeConfigMap (walk : List (String × Place)) (d : VolumeDir) :
    Option VolumeDir :=
  writeKeys cm.content walk d

def removeStaleFiles (keep : List Place) (d : VolumeDir) : VolumeDir where
  files := d.files.filter fun f => f.1 ∈ keep
  dirs := d.dirs.filter fun q => q = [] ∨ ∃ f ∈ d.files, f.1 ∈ keep ∧ q <+: f.1

def refreshConfigMapDirect (walk : List (String × Place)) (d : VolumeDir) :
    Option VolumeDir :=
  (writeKeys cm.refreshed walk d).map (removeStaleFiles (walk.map snd))

def writeProjected (walk : List (String × Place)) (d : VolumeDir) :
    Option VolumeDir :=
  if cm.data = none then none else writeKeys cm.projected walk d

def ProjectedWalk (items : List (String × ItemPath)) (walk : List (String × Place)) : Prop :=
  if items = [] then walk.Perm (plan cm.dataKeys []) else walk = located items

variable {cm}

/-- The directory has been filled by writes and refreshes of a volume with these items. -/
inductive Materialised (items : List (String × ItemPath)) : VolumeDir → Prop
  | empty : Materialised items {}
  | write {cm : ConfigMap} {walk : List (String × Place)} {d d' : VolumeDir} :
      Materialised items d → walk.Perm (cm.plan items) → writeConfigMap cm walk d = some d' →
      Materialised items d'
  | refresh {cm : ConfigMap} {walk : List (String × Place)} {d d' : VolumeDir} :
      Materialised items d → walk.Perm (cm.plan items) →
      refreshConfigMapDirect cm walk d = some d' → Materialised items d'

section Writes

variable {content : String → Option (List UInt8)} {walk : List (String × Place)}

def VolumeDir.Free (d : VolumeDir) (data : Option (List UInt8)) (p : Place) : Prop :=
  (∀ q, q <+: p.dropLast → d.file q = none) ∧ (data.isSome = true → p ∉ d.dirs)

/-- No file is written where another needs a directory. -/
def Clear (content : String → Option (List UInt8)) (walk : List (String × Place)) : Prop :=
  ∀ e ∈ walk, (content e.1).isSome = true → ∀ f ∈ walk, ¬ e.2 <+: f.2.dropLast

def VolumeDir.put (data : Option (List UInt8)) (p : Place) (d : VolumeDir) : VolumeDir where
  files := (data.map fun data => (p, data)).toList ++ d.files
  dirs := p.dropLast.inits ++ d.dirs

variable {data : Option (List UInt8)} {p : Place} {d : VolumeDir} {e : String × Place}
  {walk' : List (String × Place)} {content' : String → Option (List UInt8)}

theorem VolumeDir.file_put :
  (d.put data p).file q = (if p = q then data else none).or (d.file q)
  := by
  cases data with
  | none => simp [put, file]
  | some data =>
    by_cases h : p = q
    · simp [put, file, h]
    · simp [put, file, h, lookup_cons, beq_false_of_ne (Ne.symm h)]

theorem VolumeDir.writeKey_eq_some :
  d.writeKey data p = some d'
    ↔ d.Free data p ∧ (data.isSome → ¬ p <+: p.dropLast) ∧ d.put data p = d'
  := by
  have hfi : (∃ q ∈ p.dropLast.inits, (d.file q).isSome)
      ↔ ¬ ∀ q, q <+: p.dropLast → d.file q = none := by
    simp [mem_inits, isSome_iff_ne_none]
  by_cases h : ∃ q ∈ p.dropLast.inits, (d.file q).isSome
  · simp only [writeKey, mkdirAll, if_pos h, Free, hfi.1 h, false_and, reduceCtorEq]
  · have hno := not_not.1 (mt hfi.2 h)
    cases data with
    | none => simpa [writeKey, mkdirAll, if_neg h, Free, put] using fun _ => hno
    | some data =>
      simp only [writeKey, mkdirAll, if_neg h, writeFile, mem_append, mem_inits]
      by_cases hp : p <+: p.dropLast ∨ p ∈ d.dirs
      · simp only [if_pos hp, reduceCtorEq, false_iff]
        rintro ⟨⟨-, hdi⟩, hsl, -⟩
        exact hp.elim (hsl rfl) (hdi rfl)
      · simpa [if_neg hp, Free, put, not_or.1 hp] using fun _ => hno

theorem VolumeDir.free_put :
  (d.put data p).Free data' q
    ↔ d.Free data' q ∧ (data.isSome → ¬ p <+: q.dropLast)
      ∧ (data'.isSome → ¬ q <+: p.dropLast)
  := by
  have hfi : (∀ r, r <+: q.dropLast → (d.put data p).file r = none)
      ↔ (∀ r, r <+: q.dropLast → d.file r = none)
        ∧ (data.isSome → ¬ p <+: q.dropLast) := by
    constructor
    · intro h
      refine ⟨fun r hr => ?_, fun hda hp => ?_⟩
      · have hr := h r hr
        rw [file_put, or_eq_none_iff] at hr
        exact hr.2
      · have hp := h p hp
        rw [file_put, if_pos rfl, or_eq_none_iff] at hp
        simp [hp.1] at hda
    · rintro ⟨h, hp⟩ r hr
      rw [file_put, h r hr, or_none]
      split_ifs with hpr
      · exact not_isSome_iff_eq_none.1 fun hda => hp hda (hpr ▸ hr)
      · rfl
  have hdi : (data'.isSome → q ∉ (d.put data p).dirs)
      ↔ (data'.isSome → q ∉ d.dirs) ∧ (data'.isSome → ¬ q <+: p.dropLast) := by
    simp only [put, mem_append, mem_inits, not_or]
    tauto
  rw [Free, Free, hfi, hdi]
  tauto

theorem clear_cons :
  Clear content (e :: walk)
    ↔ ((content e.1).isSome → ¬ e.2 <+: e.2.dropLast)
      ∧ (∀ f ∈ walk, ((content e.1).isSome → ¬ e.2 <+: f.2.dropLast)
        ∧ ((content f.1).isSome → ¬ f.2 <+: e.2.dropLast))
      ∧ Clear content walk
  := by
  simp only [Clear, forall_mem_cons]
  constructor
  · rintro ⟨he, hf⟩
    exact ⟨fun hs => (he hs).1, fun f hf' => ⟨fun hs => (he hs).2 f hf', fun hs => (hf f hf' hs).1⟩,
      fun f hf' hs => (hf f hf' hs).2⟩
  · rintro ⟨hsl, hef, hf⟩
    exact ⟨fun hs => ⟨hsl hs, fun f hf' => (hef f hf').1 hs⟩,
      fun f hf' hs => ⟨(hef f hf').2 hs, hf f hf' hs⟩⟩

theorem writeKeys_isSome :
  (writeKeys content walk d).isSome
    ↔ Clear content walk ∧ ∀ e ∈ walk, d.Free (content e.1) e.2
  := by
  induction walk generalizing d with
  | nil => simp [writeKeys, Clear]
  | cons e walk ih =>
    rw [clear_cons, forall_mem_cons, writeKeys]
    cases hky : d.writeKey (content e.1) e.2 with
    | none =>
      simp only [bind_none, isSome_none, Bool.false_eq_true, false_iff]
      rintro ⟨⟨hsl, -⟩, hfr, -⟩
      rw [VolumeDir.writeKey_eq_some.2 ⟨hfr, hsl, rfl⟩] at hky
      exact nomatch hky
    | some d' =>
      obtain ⟨hfr, hsl, rfl⟩ := VolumeDir.writeKey_eq_some.1 hky
      rw [bind_some, ih]
      simp only [VolumeDir.free_put]
      constructor
      · rintro ⟨hcl, h⟩
        exact ⟨⟨hsl, fun f hf => (h f hf).2, hcl⟩, hfr, fun f hf => (h f hf).1⟩
      · rintro ⟨⟨-, hef, hcl⟩, -, h⟩
        exact ⟨hcl, fun f hf => ⟨h f hf, hef f hf⟩⟩

theorem writeKeys_empty :
  (writeKeys content walk {}).isSome ↔ Clear content walk
  := by
  rw [writeKeys_isSome, and_iff_left_of_imp]
  intro hcl e he
  refine ⟨fun q _ => rfl, fun hda hdi => hcl e he hda e he ?_⟩
  rw [mem_singleton.1 hdi]
  exact nil_prefix

theorem Clear.of_perm (hpe : walk'.Perm walk) (h : Clear content walk) :
  Clear content walk'
  := fun e he hs f hf => h e (hpe.mem_iff.1 he) hs f (hpe.mem_iff.1 hf)

theorem Clear.of_isSome (h : Clear content' walk) (hso : ∀ key, (content' key).isSome) :
  Clear content walk
  := fun e he _ => h e he (hso e.1)

/-- What the last entry of a walk with a given place writes there. -/
def lastAt (content : String → Option (List UInt8)) :
    List (String × Place) → Place → Option (List UInt8)
  | [], _ => none
  | e :: walk, p => (lastAt content walk p).or (if e.2 = p then content e.1 else none)

theorem file_of_writeKeys (h : writeKeys content walk d = some d') :
  d'.file p = (lastAt content walk p).or (d.file p)
  := by
  induction walk generalizing d with
  | nil =>
    cases h
    rfl
  | cons e walk ih =>
    obtain ⟨d₁, hky, hw⟩ := bind_eq_some_iff.1 h
    obtain ⟨-, -, rfl⟩ := VolumeDir.writeKey_eq_some.1 hky
    rw [ih hw, VolumeDir.file_put, lastAt, Option.or_assoc]

theorem file_of_writeKeys_empty (h : writeKeys content walk {} = some d) :
  d.file p = lastAt content walk p
  := by
  rw [file_of_writeKeys h]
  exact or_none

theorem lastAt_append :
  lastAt content (walk ++ walk') p = (lastAt content walk' p).or (lastAt content walk p)
  := by
  induction walk with
  | nil => simp [lastAt]
  | cons e walk ih => rw [cons_append, lastAt, ih, lastAt, Option.or_assoc]

theorem lastAt_eq_none :
  lastAt content walk p = none ↔ ∀ e ∈ walk, e.2 = p → content e.1 = none
  := by
  induction walk with
  | nil => simp [lastAt]
  | cons e walk ih =>
    rw [lastAt, or_eq_none_iff, ih, forall_mem_cons, and_comm]
    simp only [ite_eq_right_iff]

theorem split_of_lastAt (h : lastAt content walk p = some x) :
  ∃ pre e post, walk = pre ++ e :: post ∧ e.2 = p ∧ content e.1 = some x
    ∧ ∀ f ∈ post, f.2 = p → content f.1 = none
  := by
  induction walk with
  | nil => exact nomatch h
  | cons e walk ih =>
    rcases or_eq_some_iff.1 h with h | ⟨hno, h⟩
    · obtain ⟨pre, f, post, rfl, hf⟩ := ih h
      exact ⟨e :: pre, f, post, rfl, hf⟩
    · split_ifs at h with hp
      exact ⟨[], e, walk, rfl, hp, h, lastAt_eq_none.1 hno⟩

theorem exists_of_lastAt (h : lastAt content walk p = some x) :
  ∃ e ∈ walk, e.2 = p ∧ content e.1 = some x
  := by
  obtain ⟨pre, e, post, rfl, hp, hx, -⟩ := split_of_lastAt h
  exact ⟨e, by simp, hp, hx⟩

theorem lastAt_eq_some (hex : ∃ e ∈ walk, e.2 = p ∧ (content e.1).isSome)
    (hal : ∀ e ∈ walk, e.2 = p → content e.1 = none ∨ content e.1 = some x) :
  lastAt content walk p = some x
  := by
  cases h : lastAt content walk p with
  | none =>
    obtain ⟨e, he, hp, hs⟩ := hex
    simp [lastAt_eq_none.1 h e he hp] at hs
  | some y =>
    obtain ⟨e, he, hp, hy⟩ := exists_of_lastAt h
    exact hy ▸ (hal e he hp).resolve_left (by simp [hy])

theorem lastAt_perm (hn : (walk.map snd).Nodup) (hpe : walk'.Perm walk) :
  lastAt content walk' p = lastAt content walk p
  := by
  cases h : lastAt content walk p with
  | none => exact lastAt_eq_none.2 fun e he => lastAt_eq_none.1 h e (hpe.mem_iff.1 he)
  | some x =>
    obtain ⟨e, he, rfl, hx⟩ := exists_of_lastAt h
    refine lastAt_eq_some ⟨e, hpe.mem_iff.2 he, rfl, isSome_iff_exists.2 ⟨x, hx⟩⟩ ?_
    intro f hf hp
    rw [inj_on_of_nodup_map hn (hpe.mem_iff.1 hf) he hp]
    exact Or.inr hx

theorem exists_perm_lastAt (he : e ∈ walk) (hs : (content e.1).isSome) :
  ∃ walk', walk'.Perm walk ∧ lastAt content walk' e.2 = content e.1
  := by
  obtain ⟨x, hx⟩ := isSome_iff_exists.1 hs
  refine ⟨walk.erase e ++ [e], ?_, ?_⟩
  · exact (perm_append_comm.trans (perm_cons_erase he).symm)
  · simp [lastAt_append, lastAt, hx]

def Settles (content content' : String → Option (List UInt8)) (walk : List (String × Place))
    (e : String × Place) : Prop :=
  (∃ f ∈ walk, f.2 = e.2 ∧ (content f.1).isSome = true)
    ∧ ∀ f ∈ walk, f.2 = e.2 → content f.1 = none ∨ content f.1 = content' e.1

theorem settles_iff (hs : (content' e.1).isSome) :
  Settles content content' walk e
    ↔ ∀ walk', walk'.Perm walk → lastAt content walk' e.2 = content' e.1
  := by
  obtain ⟨x, hx⟩ := isSome_iff_exists.1 hs
  rw [Settles, hx]
  constructor
  · rintro ⟨⟨f, hf, hp, hsf⟩, hal⟩ walk' hpe
    exact lastAt_eq_some ⟨f, hpe.mem_iff.2 hf, hp, hsf⟩
      fun g hg => hal g (hpe.mem_iff.1 hg)
  · intro h
    constructor
    · obtain ⟨f, hf, hp, hf'⟩ := exists_of_lastAt (h walk (List.Perm.refl walk))
      exact ⟨f, hf, hp, isSome_iff_exists.2 ⟨x, hf'⟩⟩
    · intro f hf hp
      cases hsf : content f.1 with
      | none => exact Or.inl rfl
      | some y =>
        obtain ⟨walk', hpe, hl⟩ := exists_perm_lastAt hf (isSome_iff_exists.2 ⟨y, hsf⟩)
        exact Or.inr (hsf ▸ hl ▸ hp ▸ h walk' hpe)

theorem lastAt_eq_of_settles (hso : ∀ key, (content' key).isSome)
    (hpa : ∀ e ∈ walk, ∃ f ∈ order, f.2 = e.2) (hpe : walk'.Perm walk)
    (h : ∀ pre e post, order = pre ++ e :: post → (∀ f ∈ post, f.2 ≠ e.2) →
      Settles content content' walk e)
    (p : Place) :
  lastAt content' order p = lastAt content walk' p
  := by
  cases hl : lastAt content' order p with
  | some x =>
    obtain ⟨pre, e, post, heq, rfl, hx, hps⟩ := split_of_lastAt hl
    have hse := h pre e post heq fun f hf hp => by simpa [hps f hf hp] using hso f.1
    rw [(settles_iff (hso e.1)).1 hse walk' hpe, hx]
  | none =>
    refine (lastAt_eq_none.2 fun e he hp => ?_).symm
    obtain ⟨f, hf, hfe⟩ := hpa e (hpe.mem_iff.1 he)
    simpa [lastAt_eq_none.1 hl f hf (hfe.trans hp)] using hso f.1

end Writes

/-! ### The map of paths -/

variable {α : Type} {entries : List (String × α)} {entry : String × α}

theorem keyToPath_append_singleton :
  keyToPath (entries ++ [entry]) = (keyToPath entries).filter (fun e => e.1 ≠ entry.1) ++ [entry]
  := by
  simp only [keyToPath, foldl_append, foldl_cons, foldl_nil]

theorem keyToPath_sublist :
  (keyToPath entries).Sublist entries
  := by
  induction entries using reverseRecOn with
  | nil => exact nil_sublist []
  | append_singleton entries entry ih =>
    rw [keyToPath_append_singleton]
    exact (filter_sublist.trans ih).append (List.Sublist.refl [entry])

theorem keyToPath_keys_nodup (entries : List (String × α)) :
  ((keyToPath entries).map fst).Nodup
  := by
  induction entries using reverseRecOn with
  | nil => exact nodup_nil
  | append_singleton entries entry ih =>
    rw [keyToPath_append_singleton, map_append, nodup_append]
    refine ⟨ih.sublist (filter_sublist.map fst), nodup_singleton _, ?_⟩
    rintro key hky _ hi rfl
    simp_all

theorem mem_keyToPath (he : e ∈ entries) (hky : ∀ f ∈ entries, f.1 = e.1 → f = e) :
  e ∈ keyToPath entries
  := by
  induction entries using reverseRecOn with
  | nil => exact nomatch he
  | append_singleton entries entry ih =>
    rw [keyToPath_append_singleton, mem_append, mem_singleton]
    by_cases hi : e = entry
    · exact Or.inr hi
    · have he : e ∈ entries := (mem_append.1 he).resolve_right (hi ∘ mem_singleton.1)
      refine Or.inl (mem_filter.2 ⟨ih he fun f hf => hky f (by simp [hf]), ?_⟩)
      simpa using fun h : e.1 = entry.1 => hi (hky entry (by simp) h.symm).symm

theorem keyToPath_eq_self (hn : (entries.map fst).Nodup) :
  keyToPath entries = entries
  := by
  induction entries using reverseRecOn with
  | nil => rfl
  | append_singleton entries entry ih =>
    rw [map_append, nodup_append] at hn
    obtain ⟨hit, -, hne⟩ := hn
    rw [keyToPath_append_singleton, ih hit, filter_eq_self.2 fun e he => ?_]
    simpa using hne e.1 (mem_map_of_mem he) entry.1 (by simp)

variable {items : List (String × ItemPath)} {walk : List (String × Place)} {keys : List String}
  {e : String × Place}

theorem mem_plan_nil :
  e ∈ plan keys [] ↔ e.1 ∈ keys ∧ e.2 = [e.1]
  := by
  constructor
  · intro he
    obtain ⟨key, hky, rfl⟩ := mem_map.1 (keyToPath_sublist.subset he)
    exact ⟨hky, rfl⟩
  · rintro ⟨hky, hp⟩
    refine mem_keyToPath (mem_map.2 ⟨e.1, hky, Prod.ext rfl hp.symm⟩) fun f hf h => ?_
    obtain ⟨key, -, rfl⟩ := mem_map.1 hf
    exact Prod.ext h (hp ▸ h ▸ rfl)

theorem plan_paths_nodup (hpa : ((located items).map snd).Nodup) :
  ((plan keys items).map snd).Nodup
  := by
  by_cases hit : items = []
  · subst hit
    have hk := keyToPath_keys_nodup (keys.map fun key => (key, [key]))
    refine (nodup_map_iff_inj_on (List.Nodup.of_map fst hk)).2 fun e he f hf h => ?_
    have he := (mem_plan_nil.1 he).2
    have hf := (mem_plan_nil.1 hf).2
    exact Prod.ext (singleton_inj.1 (he.symm.trans (h.trans hf))) h
  · rw [plan, if_neg hit]
    exact hpa.sublist ((keyToPath_sublist.map _).map snd)

theorem clear_plan_nil (content : String → Option (List UInt8)) (keys : List String) :
  Clear content (plan keys [])
  := by
  intro e he _ f hf
  rw [(mem_plan_nil.1 he).2, (mem_plan_nil.1 hf).2]
  simp

variable {d : VolumeDir}

theorem VolumeDir.file_removeStaleFiles {keep : List Place} :
  (removeStaleFiles keep d).file p = if p ∈ keep then d.file p else none
  := by
  rw [file, file, removeStaleFiles]
  induction d.files with
  | nil => simp
  | cons f files ih =>
    obtain ⟨q, data⟩ := f
    by_cases hp : p = q
    · subst hp
      by_cases hke : p ∈ keep
      · simp [hke]
      · rw [filter_cons_of_neg (by simpa using hke), ih, if_neg hke, if_neg hke]
    · have hne : (p == q) = false := beq_false_of_ne hp
      by_cases hke : q ∈ keep <;> simp [hke, lookup_cons, hne, ih]

theorem file_of_refresh (h : refreshConfigMapDirect cm walk d = some d') :
  d'.file p = lastAt cm.refreshed walk p
  := by
  obtain ⟨d₁, hwr, rfl⟩ := map_eq_some_iff.1 h
  rw [VolumeDir.file_removeStaleFiles, file_of_writeKeys hwr]
  cases hl : lastAt cm.refreshed walk p with
  | some x =>
    obtain ⟨e, he, hp, -⟩ := exists_of_lastAt hl
    rw [if_pos (mem_map.2 ⟨e, he, hp⟩), some_or]
  | none =>
    rw [if_neg fun hp => ?_]
    obtain ⟨e, he, hp⟩ := mem_map.1 hp
    exact nomatch lastAt_eq_none.1 hl e he hp

theorem refresh_isSome :
  (refreshConfigMapDirect cm walk {}).isSome ↔ Clear cm.refreshed walk
  := by
  rw [refreshConfigMapDirect, isSome_map, writeKeys_empty]

/-- A refreshed volume is as one written anew if and only if paths clash, or every path has a key
that exists, and all its keys, a missing one counting as empty, agree. -/
theorem refresh_eq_write_iff (cm : ConfigMap) (items : List (String × ItemPath)) :
  (∀ prev, Materialised items prev → ∀ walk walk', walk.Perm (cm.plan items) →
      walk'.Perm (cm.plan items) → ∀ d, refreshConfigMapDirect cm walk prev = some d →
      ∃ d', writeConfigMap cm walk' {} = some d' ∧ ∀ p, d.file p = d'.file p)
    ↔ (Clear cm.refreshed (cm.plan items) →
      ∀ e ∈ cm.plan items, Settles cm.content cm.refreshed (cm.plan items) e)
  := by
  constructor
  · intro h hcl e he
    obtain ⟨walk, hw, hl⟩ : ∃ walk, walk.Perm (cm.plan items)
        ∧ lastAt cm.refreshed walk e.2 = cm.refreshed e.1 := exists_perm_lastAt he rfl
    obtain ⟨d, hd⟩ := isSome_iff_exists.mp (refresh_isSome.mpr (hcl.of_perm hw))
    refine (settles_iff rfl).mpr fun walk' hwa => ?_
    obtain ⟨d', hd', hfl⟩ := h {} Materialised.empty walk walk' hw hwa d hd
    rw [← hl, ← file_of_refresh hd, hfl, file_of_writeKeys_empty hd']
  · intro h prev _ walk walk' hw hwa d hd
    obtain ⟨d₁, hwr, -⟩ := map_eq_some_iff.mp hd
    have hcl : Clear cm.refreshed walk :=
      (writeKeys_isSome.mp (isSome_iff_exists.mpr ⟨d₁, hwr⟩)).1
    have hse := h (hcl.of_perm hw.symm)
    have hce : Clear cm.content walk' :=
      (hcl.of_isSome fun _ => rfl).of_perm (hwa.trans hw.symm)
    obtain ⟨d', hd'⟩ := isSome_iff_exists.mp (writeKeys_empty.mpr hce)
    refine ⟨d', hd', fun p => ?_⟩
    rw [file_of_refresh hd, file_of_writeKeys_empty hd']
    have hpa : ∀ e ∈ cm.plan items, ∃ f ∈ walk, f.2 = e.2 :=
      fun e he => ⟨e, hw.mem_iff.mpr he, rfl⟩
    refine lastAt_eq_of_settles (fun _ => rfl) hpa hwa ?_ p
    rintro pre e post rfl -
    exact hse e (hw.mem_iff.mp (by simp))

theorem refresh_missing_key :
  let cm : ConfigMap := { data := some [] }
  let walk := cm.plan [("k", .ofText "a" (by decide))]
  (refreshConfigMapDirect cm walk {}).map (VolumeDir.file · ["a"]) = some (some [])
    ∧ (writeConfigMap cm walk {}).map (VolumeDir.file · ["a"]) = some none
  := by
  decide

section Items

variable {content writes : String → Option (List UInt8)} {d' : VolumeDir}

end Items

variable {content : String → Option (List UInt8)}

theorem lastAt_plan_nil (hw : walk.Perm (plan keys [])) :
  lastAt content walk [key] = if key ∈ keys then content key else none
  := by
  have hni : ((located []).map snd).Nodup := nodup_nil
  rw [lastAt_perm (plan_paths_nodup hni) hw]
  split_ifs with hky
  · cases hda : content key with
    | none =>
      refine lastAt_eq_none.2 fun e he hp => ?_
      rw [← singleton_inj.1 (hp.symm.trans (mem_plan_nil.1 he).2), hda]
    | some data =>
      refine lastAt_eq_some ⟨(key, [key]), mem_plan_nil.2 ⟨hky, rfl⟩, rfl, by simp [hda]⟩ ?_
      intro e he hp
      rw [← singleton_inj.1 (hp.symm.trans (mem_plan_nil.1 he).2)]
      exact Or.inr hda
  · refine lastAt_eq_none.2 fun e he hp => absurd ?_ hky
    rw [singleton_inj.1 (hp.symm.trans (mem_plan_nil.1 he).2)]
    exact (mem_plan_nil.1 he).1

theorem lastAt_plan_nil_eq_none (hw : walk.Perm (plan keys [])) (hp : ∀ key, p ≠ [key]) :
  lastAt content walk p = none
  := by
  refine lastAt_eq_none.2 fun e he h => absurd ?_ (hp e.1)
  rw [← h, (mem_plan_nil.1 (hw.mem_iff.1 he)).2]

theorem writeProjected_isSome :
  (writeProjected cm walk {}).isSome ↔ cm.data.isSome ∧ Clear cm.projected walk
  := by
  rw [← writeKeys_empty, writeProjected]
  cases hda : cm.data <;> simp

theorem file_of_writeProjected (h : writeProjected cm walk {} = some d) :
  d.file p = lastAt cm.projected walk p
  := by
  rw [writeProjected] at h
  split_ifs at h
  exact file_of_writeKeys_empty h

def SameFiles (a b : Option VolumeDir) : Prop :=
  (a = none ∧ b = none) ∨ ∃ d d', a = some d ∧ b = some d' ∧ ∀ p, d.file p = d'.file p

def ProjectedAgrees (cm : ConfigMap) (items : List (String × ItemPath)) : Prop :=
  ∀ walk walk', walk.Perm (cm.plan items) → ProjectedWalk cm items walk' →
    SameFiles (writeConfigMap cm walk {}) (writeProjected cm walk' {})

theorem sameFiles_iff :
  SameFiles (writeConfigMap cm walk {}) (writeProjected cm walk' {})
    ↔ (Clear cm.content walk ↔ cm.data.isSome ∧ Clear cm.projected walk')
      ∧ (Clear cm.content walk → ∀ p, lastAt cm.content walk p = lastAt cm.projected walk' p)
  := by
  rw [← writeKeys_empty, ← writeProjected_isSome, ← writeConfigMap]
  cases hpi : writeConfigMap cm walk {} with
  | none => cases writeProjected cm walk' {} <;> simp [SameFiles]
  | some d =>
    cases hpo : writeProjected cm walk' {} with
    | none => simp [SameFiles]
    | some d' =>
      simp [SameFiles, ← file_of_writeKeys_empty hpi, ← file_of_writeProjected hpo]

variable {data : List (String × List UInt8)} {key : String}

theorem exists_lookup_iff :
  (∃ x, data.lookup key = some x) ↔ key ∈ data.map fst
  := by
  induction data with
  | nil => simp
  | cons e data ih =>
    obtain ⟨k, x⟩ := e
    by_cases h : key = k
    · simp [h]
    · simp only [lookup_cons, beq_false_of_ne h, ih, map_cons, mem_cons, h, false_or]

theorem lookup_eq_none (h : key ∉ data.map fst) :
  data.lookup key = none
  := eq_none_iff_forall_ne_some.2 fun x hx => h (exists_lookup_iff.1 ⟨x, hx⟩)

theorem projectedAgrees_nil :
  ProjectedAgrees cm []
    ↔ ∃ data, cm.data = some data
      ∧ ∀ key ∈ cm.binaryData.map fst, data.lookup key = cm.binaryData.lookup key
  := by
  simp only [ProjectedAgrees, ProjectedWalk, if_pos, sameFiles_iff]
  constructor
  · intro h
    obtain ⟨hda, hfl⟩ := h _ _ (List.Perm.refl _) (List.Perm.refl _)
    have hcl := clear_plan_nil cm.content (cm.dataKeys ++ cm.binaryData.map fst)
    obtain ⟨data, hda⟩ := isSome_iff_exists.1 (hda.1 hcl).1
    refine ⟨data, hda, fun key hky => ?_⟩
    obtain ⟨x, hx⟩ := exists_lookup_iff.2 hky
    have hfi := hfl hcl [key]
    rw [ConfigMap.plan, lastAt_plan_nil (List.Perm.refl _), lastAt_plan_nil (List.Perm.refl _),
      if_pos (mem_append_right _ hky)] at hfi
    by_cases ht : key ∈ data.map fst
    · obtain ⟨y, hy⟩ := exists_lookup_iff.2 ht
      simpa [ConfigMap.content, ConfigMap.projected, ConfigMap.dataKeys, hda, ht, hx, hy]
        using hfi
    · simp [ConfigMap.content, ConfigMap.dataKeys, hda, ht, hx] at hfi
  · rintro ⟨data, hda, hsa⟩ walk walk' hw hwa
    have hcl := (clear_plan_nil cm.content _).of_perm hw
    have hce := (clear_plan_nil cm.projected _).of_perm hwa
    refine ⟨⟨fun _ => ⟨by simp [hda], hce⟩, fun _ => hcl⟩, fun _ p => ?_⟩
    by_cases hp : ∃ key, p = [key]
    · obtain ⟨key, rfl⟩ := hp
      rw [lastAt_plan_nil hw, lastAt_plan_nil hwa]
      have hk : cm.dataKeys = data.map fst := by rw [ConfigMap.dataKeys, hda]; rfl
      simp only [ConfigMap.content, ConfigMap.projected, hda, getD_some, hk, mem_append]
      by_cases hbi : key ∈ cm.binaryData.map fst
      · obtain ⟨x, hx⟩ := exists_lookup_iff.2 hbi
        have ht := exists_lookup_iff.1 ⟨x, (hsa key hbi).trans hx⟩
        simp only [hsa key hbi, hx, ht, true_or, if_true, some_or, getD_some]
      · by_cases ht : key ∈ data.map fst
        · obtain ⟨y, hy⟩ := exists_lookup_iff.2 ht
          simp only [lookup_eq_none hbi, hy, ht, true_or, if_true, some_or,
            getD_none, getD_some]
        · simp only [ht, hbi, or_false, if_false]
    · have hp := not_exists.1 hp
      rw [lastAt_plan_nil_eq_none hw hp, lastAt_plan_nil_eq_none hwa hp]

/-- With items the volumes agree if both fail, or there is text, no paths clash, and the last item
of a path gives the data of all its keys. -/
theorem projectedAgrees_items (cm : ConfigMap) (hne : items ≠ [])
    (hk : (items.map fst).Nodup) :
  ProjectedAgrees cm items
    ↔ ¬ Clear cm.content (located items)
      ∨ cm.data.isSome ∧ Clear cm.projected (located items)
        ∧ ∀ pre e post, located items = pre ++ e :: post → (∀ f ∈ post, f.2 ≠ e.2) →
          Settles cm.content cm.projected (located items) e
  := by
  have hpl : cm.plan items = located items := by
    rw [ConfigMap.plan, plan, if_neg hne, keyToPath_eq_self hk]
  simp only [ProjectedAgrees, ProjectedWalk, if_neg hne, hpl, sameFiles_iff]
  generalize located items = all
  have hcl {walk} (h : walk.Perm all) : Clear cm.content walk ↔ Clear cm.content all :=
    ⟨Clear.of_perm h.symm, Clear.of_perm h⟩
  constructor
  · intro h
    by_cases hc : Clear cm.content all
    · obtain ⟨hda, hp⟩ := (h all all (List.Perm.refl all) rfl).1.1 hc
      refine Or.inr ⟨hda, hp, fun pre e post heq hps => ?_⟩
      refine (settles_iff rfl).2 fun walk hw => ?_
      rw [(h walk all hw rfl).2 ((hcl hw).2 hc), heq, lastAt_append, lastAt,
        if_pos rfl, lastAt_eq_none.2 fun f hf hp => absurd hp (hps f hf)]
      rfl
    · exact Or.inl hc
  · rintro h walk _ hw rfl
    rw [hcl hw]
    rcases h with hc | ⟨hda, hp, hse⟩
    · exact ⟨⟨fun h => absurd h hc, fun h => h.2.of_isSome fun _ => rfl⟩, fun h => absurd h hc⟩
    · refine ⟨⟨fun _ => ⟨hda, hp⟩, fun h => h.2.of_isSome fun _ => rfl⟩, fun _ p => ?_⟩
      exact (lastAt_eq_of_settles (fun _ => rfl) (fun e he => ⟨e, he, rfl⟩) hw hse p).symm

/-- When a projected volume and a ConfigMap volume agree. -/
theorem projected_agrees_iff (cm : ConfigMap) {items : List (String × ItemPath)}
    (hkeys : (items.map fst).Nodup) :
  ProjectedAgrees cm items
    ↔ if items = [] then
        ∃ data, cm.data = some data
          ∧ ∀ key ∈ cm.binaryData.map fst, data.lookup key = cm.binaryData.lookup key
      else
        ¬ Clear cm.content (located items)
          ∨ cm.data.isSome = true ∧ Clear cm.projected (located items)
            ∧ ∀ pre e post, located items = pre ++ e :: post → (∀ f ∈ post, f.2 ≠ e.2) →
              Settles cm.content cm.projected (located items) e
  := by
  by_cases hne : items = []
  · subst hne
    rw [if_pos rfl, projectedAgrees_nil]
  · rw [if_neg hne, projectedAgrees_items cm hne hkeys]

theorem projected_agrees_bundle :
  let cm : ConfigMap :=
    { data := some [("ca", [1]), ("crl", [2])], binaryData := [("ca.der", [4]), ("crl", [2])] }
  ProjectedAgrees cm [("ca", .ofText "pki/ca.crt" (by decide)),
    ("ca.der", .ofText "./ca.der" (by decide)), ("crl", .ofText "crl" (by decide))]
  := by
  refine (projected_agrees_iff _ (by decide)).mpr (Or.inr ⟨rfl, ?_, ?_⟩)
  · unfold Clear
    decide
  · intro pre e post h hps
    have he : e ∈ pre ++ e :: post := by simp
    rw [← h] at he
    clear h hps
    unfold Settles
    revert e
    decide

theorem projected_omits_binary :
  let cm : ConfigMap := { data := some [], binaryData := [("b", [1])] }
  ProjectedWalk cm [] []
    ∧ (writeConfigMap cm (cm.plan []) {}).map (VolumeDir.file · ["b"]) = some (some [1])
    ∧ (writeProjected cm [] {}).map (VolumeDir.file · ["b"]) = some none
  := by
  refine ⟨?_, by decide, by decide⟩
  rw [ProjectedWalk, if_pos rfl]
  decide

end Periapsis.Volume
