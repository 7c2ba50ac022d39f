import Periapsis.Systemd.UnitName

/-!
# The log stream of a container

`getLogStream` sets a cursor on the journal and hands it to a reader.
-/

namespace Periapsis.Systemd

open List

structure JournalEntry where
  unit : String := ""
  invocationID : String := ""
  syslogIdentifier : String := ""
  realtime : Nat := 0
  message : List UInt8 := []
  deriving DecidableEq

structure ContainerLogOpts where
  tail : Int := 0
  follow : Bool := false
  previous : Bool := false
  sinceSeconds : Int := 0

/-- Where a reader of the journal is. -/
inductive JournalCursor where
  | before (i : Nat)
  | on (i : Nat)
  deriving DecidableEq

structure Journal where
  entries : List JournalEntry
  cursor : JournalCursor
  deriving DecidableEq

def Journal.ahead (j : Journal) : List JournalEntry :=
  match j.cursor with
  | .before i => j.entries.drop i
  | .on i => j.entries.drop (i + 1)

def Journal.next (j : Journal) : Option (JournalEntry × Journal) :=
  let i := match j.cursor with
    | .before i => i
    | .on i => i + 1
  j.entries[i]?.map fun e => (e, { j with cursor := .on i })

variable (entries : List JournalEntry)

def Journal.seekHead : Journal :=
  ⟨entries, .before 0⟩

def Journal.seekTail : Journal :=
  ⟨entries, .before entries.length⟩

def Journal.seekRealtimeUsec (usec : Nat) : Journal :=
  ⟨entries, .before (entries.takeWhile (·.realtime < usec)).length⟩

variable {entries}

def Journal.previousSkip (j : Journal) (k : Nat) : Journal :=
  match j.cursor with
  | .before i => if min k i = 0 then j else { j with cursor := .on (i - k) }
  | .on i => { j with cursor := .on (i - k) }

variable (journal : List JournalEntry)

def loadInvocationIDs (unitName : String) : List String :=
  (journal.filter (·.unit = unitName)).foldl (fun ids e =>
    if e.invocationID = "" then ids
    else if e.invocationID ∈ ids then ids
    else ids ++ [e.invocationID]) []

def targetID (ids : List String) (opts : ContainerLogOpts) : Except String String :=
  if opts.previous then
    if ids.length < 2 then .error "no previous logs available"
    else .ok (ids[ids.length - 2]?.getD "")
  else .ok (ids.getLast?.getD "")

def matching (target unitName containerName : String) :
  List JournalEntry :=
  journal.filter fun e =>
    (if target ≠ "" then e.invocationID = target else e.unit = unitName)
      ∧ e.syslogIdentifier = containerName

def cutoff (now : Int) (opts : ContainerLogOpts) : Nat :=
  ((now + (-opts.sinceSeconds * 1000000000).bmod 18446744073709551616) / 1000
    % 18446744073709551616).toNat

structure JournalReader where
  journal : Journal
  buf : List UInt8 := []
  follow : Bool

def seek (entries : List JournalEntry) (now : Int) (opts : ContainerLogOpts) : Journal :=
  if opts.sinceSeconds > 0 then Journal.seekRealtimeUsec entries (cutoff now opts)
  else if opts.tail > 0 then (Journal.seekTail entries).previousSkip opts.tail.toNat
  else Journal.seekHead entries

def getLogStream (now : Int) (pawnName podUID containerName : String) (opts : ContainerLogOpts) :
  Except String JournalReader := do
  let unitName := wrapperUnitName pawnName podUID containerName
  let target ← targetID (loadInvocationIDs journal unitName) opts
  return { journal := seek (matching journal target unitName containerName) now opts
           follow := opts.follow }

variable {journal}

inductive ReadResult where
  | read (bytes : List UInt8) (r : JournalReader)
  | eof
  | waits

def JournalReader.read (r : JournalReader) (size : Nat) : ReadResult :=
  if r.buf = [] then
    match r.journal.next with
    | none => if r.follow then .waits else .eof
    | some (e, journal) =>
      let buf := e.message ++ [10]
      .read (buf.take size) { r with journal, buf := buf.drop size }
  else .read (r.buf.take size) { r with buf := r.buf.drop size }

def JournalReader.readAll (r : JournalReader) : List Nat → List UInt8 × Bool
  | [] => ([], false)
  | size :: sizes =>
    match r.read size with
    | .read bytes r => ((bytes ++ (r.readAll sizes).1), (r.readAll sizes).2)
    | .eof => ([], true)
    | .waits => ([], false)

def JournalReader.Yields (r : JournalReader) (bytes : List UInt8) : Prop :=
  ∀ sizes, (∀ size ∈ sizes, 0 < size) → bytes.length < sizes.length →
    r.readAll sizes = (bytes, true)

def messages (entries : List JournalEntry) : List UInt8 :=
  entries.flatMap fun e => e.message ++ [10]

theorem Journal.ahead_of_next (j : Journal) :
  (j.next = none ∧ j.ahead = []) ∨ ∃ e j', j.next = some (e, j') ∧ j.ahead = e :: j'.ahead
  := by
  obtain ⟨entries, cursor⟩ := j
  have hg : ∀ i, (entries[i]? = none ∧ entries.drop i = [])
      ∨ ∃ e, entries[i]? = some e ∧ entries.drop i = e :: entries.drop (i + 1) := by
    intro i
    cases hi : entries[i]? with
    | none => exact .inl ⟨rfl, drop_eq_nil_of_le (getElem?_eq_none_iff.1 hi)⟩
    | some e =>
      obtain ⟨hlt, rfl⟩ := List.getElem?_eq_some_iff.1 hi
      exact .inr ⟨_, rfl, drop_eq_getElem_cons hlt⟩
  cases cursor with
  | before i =>
    cases hg i with
    | inl h => exact .inl ⟨by simp [Journal.next, h.1], h.2⟩
    | inr h =>
      obtain ⟨e, hi, hd⟩ := h
      exact .inr ⟨e, ⟨entries, .on i⟩, by simp [Journal.next, hi], hd⟩
  | on i =>
    cases hg (i + 1) with
    | inl h => exact .inl ⟨by simp [Journal.next, h.1], h.2⟩
    | inr h =>
      obtain ⟨e, hi, hd⟩ := h
      exact .inr ⟨e, ⟨entries, .on (i + 1)⟩, by simp [Journal.next, hi], hd⟩

variable {r : JournalReader}

theorem JournalReader.readAll_eq (hf : r.follow = false) (hsi : ∀ size ∈ sizes, 0 < size)
    (hl : (r.buf ++ messages r.journal.ahead).length < sizes.length) :
  r.readAll sizes = (r.buf ++ messages r.journal.ahead, true)
  := by
  induction sizes generalizing r with
  | nil => cases hl
  | cons size sizes ih =>
    have hsz := hsi size mem_cons_self
    have hrs := fun s hs => hsi s (mem_cons_of_mem _ hs)
    -- a buffer that is not empty is read first
    have hb : ∀ r : JournalReader, r.follow = false → r.buf ≠ [] →
        (r.buf ++ messages r.journal.ahead).length < sizes.length + 1 →
        ({ r with buf := r.buf.drop size } : JournalReader).readAll sizes
          = (r.buf.drop size ++ messages r.journal.ahead, true) := by
      intro r hf hne hlt
      apply ih (r := { r with buf := r.buf.drop size }) hf hrs
      have := length_pos_of_ne_nil hne
      simp only [length_append, length_drop] at hlt ⊢
      omega
    by_cases hem : r.buf = []
    · cases r.journal.ahead_of_next with
      | inl h =>
        simp [JournalReader.readAll, JournalReader.read, hem, h.1, h.2, hf, messages]
      | inr h =>
        obtain ⟨e, j', hnx, ha⟩ := h
        have hre := hb { r with journal := j', buf := e.message ++ [10] } hf
          (by simp) (by simpa [hem, ha, messages] using hl)
        simp only [JournalReader.readAll, JournalReader.read, hem, hnx, if_true, hre, ha]
        rw [← append_assoc, take_append_drop]
        rfl
    · simp only [JournalReader.readAll, JournalReader.read, hem, if_false,
        hb r hf hem hl]
      rw [← append_assoc, take_append_drop]

theorem JournalReader.yields_iff {bytes : List UInt8} (hf : r.follow = false)
    (hb : r.buf = []) :
  r.Yields bytes ↔ bytes = messages r.journal.ahead
  := by
  have hr : r.Yields (r.buf ++ messages r.journal.ahead) := fun _ hsi hl =>
    JournalReader.readAll_eq hf hsi hl
  rw [hb, nil_append] at hr
  constructor
  · intro hy
    -- buffers of one byte, enough of them for either
    have hsi : ∀ size ∈ replicate (bytes.length + (messages r.journal.ahead).length + 1) 1,
        0 < size := fun size hm => (eq_of_mem_replicate hm) ▸ Nat.one_pos
    have ho := hy _ hsi (by rw [length_replicate]; omega)
    have htw := hr _ hsi (by rw [length_replicate]; omega)
    exact congrArg Prod.fst (ho.symm.trans htw)
  · rintro rfl sizes hsi hl
    exact hr sizes hsi hl

/-- The last `n` entries. -/
def lastEntries (n : Nat) (entries : List JournalEntry) : List JournalEntry :=
  entries.drop (entries.length - n)

def recent (now : Int) (opts : ContainerLogOpts) (entries : List JournalEntry) :
  List JournalEntry :=
  if opts.sinceSeconds > 0 then entries.filter (cutoff now opts ≤ ·.realtime) else entries

/-- There is nothing to read, or a time is given, no older entry comes after one that is not, and
there are no more than are asked for. -/
def TailHolds (now : Int) (opts : ContainerLogOpts) (entries : List JournalEntry) : Prop :=
  if opts.sinceSeconds > 0 then
    (∀ e ∈ entries.dropWhile (·.realtime < cutoff now opts), cutoff now opts ≤ e.realtime)
      ∧ (recent now opts entries).length ≤ opts.tail.toNat
  else entries = []

variable {some all : List JournalEntry}

theorem length_messages_le (hsu : some.Sublist all) :
  (messages some).length ≤ (messages all).length
  := by
  induction hsu with
  | slnil => exact Nat.le_refl _
  | cons e _ ih | cons_cons e _ ih =>
    simp only [messages, flatMap_cons, length_append] at ih ⊢
    omega

theorem messages_sublist (hsu : some.Sublist all) :
  messages some = messages all ↔ some = all
  := by
  refine ⟨fun heq => ?_, fun heq => heq ▸ rfl⟩
  induction hsu with
  | slnil => rfl
  | cons e hsu ih =>
    have hl := length_messages_le hsu
    rw [heq] at hl
    simp only [messages, flatMap_cons, length_append, length_singleton] at hl
    omega
  | cons_cons e hsu ih =>
    exact congrArg (e :: ·) (ih (append_cancel_left heq))

variable {usec : Nat}

theorem ahead_since :
  (Journal.seekRealtimeUsec entries usec).ahead = entries.dropWhile (·.realtime < usec)
  := by
  have hsp := takeWhile_append_dropWhile (p := fun e => e.realtime < usec) (l := entries)
  change entries.drop _ = _
  nth_rewrite 2 [← hsp]
  exact drop_left

theorem ahead_tail (entries : List JournalEntry) (hn : 0 < n) :
  ((Journal.seekTail entries).previousSkip n).ahead = entries.drop (entries.length - n + 1)
  := by
  cases entries with
  | nil =>
    simp [Journal.seekTail, Journal.previousSkip, Journal.ahead]
  | cons e entries =>
    have hmi : ¬ min n (e :: entries).length = 0 := by
      rw [length_cons]
      omega
    simp only [Journal.seekTail, Journal.previousSkip, if_neg hmi, Journal.ahead]

theorem filter_eq_filter_dropWhile :
  entries.filter (usec ≤ ·.realtime)
    = (entries.dropWhile (·.realtime < usec)).filter (usec ≤ ·.realtime)
  := by
  induction entries with
  | nil => rfl
  | cons e entries ih =>
    by_cases he : e.realtime < usec
    · rw [dropWhile_cons_of_pos (by simpa using he), ← ih,
        filter_cons_of_neg (by simpa using he)]
    · rw [dropWhile_cons_of_neg (by simpa using he)]

theorem lastEntries_sublist (n : Nat) (entries : List JournalEntry) :
  (lastEntries n entries).Sublist entries
  := drop_sublist _ _

theorem messages_since_iff {opts : ContainerLogOpts} (entries : List JournalEntry) (n : Nat)
    (hsn : opts.sinceSeconds > 0) :
  messages (lastEntries n (recent now opts entries))
      = messages (entries.dropWhile (·.realtime < cutoff now opts))
    ↔ (∀ e ∈ entries.dropWhile (·.realtime < cutoff now opts), cutoff now opts ≤ e.realtime)
      ∧ (recent now opts entries).length ≤ n
  := by
  rw [recent, if_pos hsn, filter_eq_filter_dropWhile]
  generalize entries.dropWhile (·.realtime < cutoff now opts) = late
  rw [messages_sublist ((lastEntries_sublist n _).trans filter_sublist)]
  constructor
  · intro heq
    have hal : ∀ e ∈ late, cutoff now opts ≤ e.realtime := by
      intro e hm
      rw [← heq] at hm
      exact of_decide_eq_true (mem_filter.1 ((lastEntries_sublist n _).subset hm)).2
    have hfi : late.filter (cutoff now opts ≤ ·.realtime) = late :=
      filter_eq_self.2 fun e hm => decide_eq_true (hal e hm)
    rw [hfi] at heq ⊢
    have hl := congrArg length heq
    rw [lastEntries, length_drop] at hl
    refine ⟨hal, ?_⟩
    omega
  · rintro ⟨hal, hl⟩
    have hfi : late.filter (cutoff now opts ≤ ·.realtime) = late :=
      filter_eq_self.2 fun e hm => decide_eq_true (hal e hm)
    rw [hfi] at hl ⊢
    rw [lastEntries, Nat.sub_eq_zero_of_le hl, drop_zero]

theorem messages_tail_iff (entries : List JournalEntry) (hn : 0 < n) :
  messages (lastEntries n entries) = messages (entries.drop (entries.length - n + 1))
    ↔ entries = []
  := by
  have hsu : (entries.drop (entries.length - n + 1)).Sublist (lastEntries n entries) :=
    drop_sublist_drop_left _ (Nat.le_succ _)
  rw [eq_comm, messages_sublist hsu]
  constructor
  · intro heq
    have hl := congrArg length heq
    rw [lastEntries, length_drop, length_drop] at hl
    exact eq_nil_of_length_eq_zero (by omega)
  · rintro rfl
    rw [drop_nil, lastEntries, drop_nil]

/-- The stream of the last entries gives the messages of these exactly if there are none, or a time
is given and the number does not matter. -/
theorem getLogStream_yields_iff {journal : List JournalEntry} {now : Int}
    {pawnName podUID containerName target : String} {opts : ContainerLogOpts} {r : JournalReader}
    (htail : 0 < opts.tail) (hfollow : opts.follow = false) (htarget : targetID
      (loadInvocationIDs journal (wrapperUnitName pawnName podUID containerName)) opts = .ok target)
    (hstream : getLogStream journal now pawnName podUID containerName opts = .ok r) :
  r.Yields (messages (lastEntries opts.tail.toNat (recent now opts
      (matching journal target (wrapperUnitName pawnName podUID containerName) containerName))))
    ↔ TailHolds now opts
      (matching journal target (wrapperUnitName pawnName podUID containerName) containerName)
  := by
  simp only [getLogStream, htarget] at hstream
  cases hstream
  generalize matching journal target (wrapperUnitName pawnName podUID containerName) containerName
    = entries
  rw [JournalReader.yields_iff hfollow rfl, TailHolds]
  by_cases hsn : opts.sinceSeconds > 0
  · simp only [seek, if_pos hsn, ahead_since]
    exact messages_since_iff entries _ hsn
  · have hn : 0 < opts.tail.toNat := by omega
    simp only [seek, if_neg hsn, gt_iff_lt, if_pos htail, ahead_tail entries hn, recent]
    exact messages_tail_iff entries hn

/-- Entries of two containers, of which those from the eleventh second on are asked for. -/
def twoContainers : List JournalEntry :=
  [{ unit := wrapperUnitName "a" "b" "c", syslogIdentifier := "c", realtime := 9000000,
     message := [65] },
    { unit := wrapperUnitName "a" "b" "d", syslogIdentifier := "d", realtime := 11000000,
      message := [66] },
    { unit := wrapperUnitName "a" "b" "c", syslogIdentifier := "c", realtime := 12000000,
      message := [67, 68] },
    { unit := wrapperUnitName "a" "b" "c", syslogIdentifier := "c", realtime := 14000000 }]

theorem getLogStream_yields_since :
  ∃ r, getLogStream twoContainers 15000000000 "a" "b" "c" { tail := 2, sinceSeconds := 4 } = .ok r
    ∧ r.Yields [67, 68, 10, 10]
  := by
  have hst : getLogStream twoContainers 15000000000 "a" "b" "c" { tail := 2, sinceSeconds := 4 }
      = .ok _ := rfl
  have hm : messages (lastEntries 2 (recent 15000000000 { tail := 2, sinceSeconds := 4 }
      (matching twoContainers "" (wrapperUnitName "a" "b" "c") "c"))) = [67, 68, 10, 10] := by
    decide +kernel
  refine ⟨_, hst, hm ▸ (getLogStream_yields_iff (by decide) rfl rfl hst).mpr ?_⟩
  rw [TailHolds, if_pos (by decide)]
  decide +kernel

theorem getLogStream_one_less :
  let entry := fun message : List UInt8 =>
    { unit := wrapperUnitName "a" "b" "c", syslogIdentifier := "c", message : JournalEntry }
  (getLogStream [entry [65], entry [66], entry [67]] 0 "a" "b" "c" { tail := 2 }).map
      (·.readAll [9, 9, 9]) = .ok ([67, 10], true)
    ∧ messages (lastEntries 2 [entry [65], entry [66], entry [67]]) = [66, 10, 67, 10]
  := by
  decide +kernel

end Periapsis.Systemd
