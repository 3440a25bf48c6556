import Mathlib.Data.List.Basic

/-!
# Event streams

The parser of server-sent events in the HTML standard, as far as messages go: lines, fields, and
the dispatch at an empty line. A stream of frames is read as their messages wherever it is cut.
-/

namespace EventStream

structure Message where
  event : List Char
  data : List Char
  deriving DecidableEq

/-- The parser between two characters. -/
structure Reader where
  line : List Char := []
  /-- The last line was ended by a return, to which a newline may belong. -/
  afterReturn : Bool := false
  event : List Char := []
  data : List (List Char) := []
  messages : List Message := []

namespace Reader

/-- At an empty line. A message without an event type has the type `message`. -/
def dispatch (p : Reader) : Reader :=
  if p.data = [] then { p with event := [] }
  else
    { p with
      event := []
      data := []
      messages := p.messages ++
        [⟨if p.event = [] then ['m', 'e', 's', 's', 'a', 'g', 'e'] else p.event,
          ['\n'].intercalate p.data⟩] }

/-- A line that is not empty. One that starts with a colon is a comment, a field without a name. -/
def field (p : Reader) (line : List Char) : Reader :=
  let name := line.takeWhile (· ≠ ':')
  let rest := line.drop (name.length + 1)
  let value := if rest.head? = some ' ' then rest.tail else rest
  if name = ['d', 'a', 't', 'a'] then { p with data := p.data ++ [value] }
  else if name = ['e', 'v', 'e', 'n', 't'] then { p with event := value }
  else p

def endLine (p : Reader) : Reader :=
  let q := { p with line := [] }
  if p.line = [] then q.dispatch else q.field p.line

def feed (p : Reader) (c : Char) : Reader :=
  if c = '\n' then
    if p.afterReturn then { p with afterReturn := false } else p.endLine
  else if c = '\r' then { p.endLine with afterReturn := true }
  else { p with line := p.line ++ [c], afterReturn := false }

def feedAll (p : Reader) (t : List Char) : Reader := t.foldl feed p

end Reader

/-- The messages of a stream as far as it has come. -/
def messages (t : List Char) : List Message := (Reader.feedAll {} t).messages

/-- A message of one line. -/
def frame (d : List Char) : List Char := ['d', 'a', 't', 'a', ':', ' '] ++ d ++ ['\n', '\n']

def message (d : List Char) : Message := ⟨['m', 'e', 's', 's', 'a', 'g', 'e'], d⟩

example : messages "data: a\r\ndata:b\n\n: c\nevent: x\ndata\n\ndata: d\n".toList =
    [⟨"message".toList, "a\nb".toList⟩, ⟨"x".toList, []⟩] := by decide

section growth

open Reader

lemma feedAll_append (p : Reader) (s t : List Char) :
    p.feedAll (s ++ t) = (p.feedAll s).feedAll t := List.foldl_append

lemma messages_dispatch (p : Reader) : p.messages <+: p.dispatch.messages := by
  unfold dispatch
  split
  · exact List.prefix_rfl
  · exact List.prefix_append _ _

lemma messages_field (p : Reader) (line : List Char) : (p.field line).messages = p.messages := by
  unfold field
  dsimp only
  split_ifs <;> rfl

lemma messages_endLine (p : Reader) : p.messages <+: p.endLine.messages := by
  unfold endLine
  dsimp only
  split
  · exact messages_dispatch { p with line := [] }
  · exact (messages_field { p with line := [] } p.line).symm ▸ List.prefix_rfl

/-- A message that has been read stays. -/
lemma messages_feed (p : Reader) (c : Char) : p.messages <+: (p.feed c).messages := by
  unfold feed
  split_ifs
  · exact List.prefix_rfl
  · exact messages_endLine p
  · exact messages_endLine p
  · exact List.prefix_rfl

lemma messages_feedAll (p : Reader) (t : List Char) : p.messages <+: (p.feedAll t).messages := by
  induction t generalizing p with
  | nil => exact List.prefix_rfl
  | cons c t ih => exact (messages_feed p c).trans (ih (p.feed c))

end growth

section frames

open Reader

/-- A text of one line. -/
def OneLine (d : List Char) : Prop := ∀ c ∈ d, c ≠ '\n' ∧ c ≠ '\r'

lemma feedAll_oneLine {t : List Char} (ht : OneLine t) {p : Reader} (hp : p.afterReturn = false) :
    p.feedAll t = { p with line := p.line ++ t } := by
  induction t generalizing p with
  | nil =>
    rw [List.append_nil]
    rfl
  | cons c t ih =>
    obtain ⟨hnewline, hreturn⟩ := ht c List.mem_cons_self
    have hfeed : p.feed c = { p with line := p.line ++ [c] } := by
      unfold feed
      rw [if_neg hnewline, if_neg hreturn, hp]
    have hrest := ih (fun c hc => ht c (List.mem_cons_of_mem _ hc))
      (p := { p with line := p.line ++ [c] }) hp
    change (p.feed c).feedAll t = _
    rw [hfeed, hrest, List.append_assoc]
    rfl

/-- A data line is kept for the message. -/
lemma feedAll_dataLine {d : List Char} (hd : OneLine d) (ms : List Message) :
    feedAll { messages := ms } (['d', 'a', 't', 'a', ':', ' '] ++ d ++ ['\n']) =
      { messages := ms, data := [d] } := by
  have hline : OneLine (['d', 'a', 't', 'a', ':', ' '] ++ d) := by
    intro c hc
    rcases List.mem_append.mp hc with hc | hc
    · have hall : ∀ c ∈ ['d', 'a', 't', 'a', ':', ' '], c ≠ '\n' ∧ c ≠ '\r' := by simp
      exact hall c hc
    · exact hd c hc
  rw [feedAll_append, feedAll_oneLine hline rfl]
  rfl

lemma feedAll_frame {d : List Char} (hd : OneLine d) (ms : List Message) :
    feedAll { messages := ms } (frame d) = { messages := ms ++ [message d] } := by
  have hframe : frame d = (['d', 'a', 't', 'a', ':', ' '] ++ d ++ ['\n']) ++ ['\n'] := by
    unfold frame
    simp only [List.append_assoc, List.cons_append, List.nil_append]
  have hjoin : ['\n'].intercalate [d] = d := by simp
  rw [hframe, feedAll_append, feedAll_dataLine hd]
  exact congrArg (fun t => ({ messages := ms ++ [message t] } : Reader)) hjoin

/-- A frame is read when its last character is. -/
lemma messages_of_prefix_frame {d t : List Char} (hd : OneLine d) (ms : List Message)
    (ht : t <+: frame d) (hne : t ≠ frame d) : (feedAll { messages := ms } t).messages = ms := by
  have hframe : frame d = (['d', 'a', 't', 'a', ':', ' '] ++ d ++ ['\n']) ++ ['\n'] := by
    unfold frame
    simp only [List.append_assoc, List.cons_append, List.nil_append]
  rw [hframe] at ht hne
  rcases List.prefix_concat_iff.mp ht with rfl | ht
  · exact absurd rfl hne
  · obtain ⟨u, hu⟩ := ht
    have hgrowth := messages_feedAll (feedAll { messages := ms } t) u
    rw [← feedAll_append, hu, feedAll_dataLine hd] at hgrowth
    exact (hgrowth.eq_of_length_le (messages_feedAll { messages := ms } t).length_le)

/-- A stream of frames that is cut anywhere is read as the messages of its first frames. -/
theorem messages_of_prefix {ds : List (List Char)} (hds : ∀ d ∈ ds, OneLine d) {t : List Char}
    (ht : t <+: ds.flatMap frame) : ∃ k, messages t = (ds.take k).map message ∧
      (t = ds.flatMap frame → k = ds.length) := by
  have hgo : ∀ (ds : List (List Char)) (ms : List Message) (t : List Char),
      (∀ d ∈ ds, OneLine d) → t <+: ds.flatMap frame →
      ∃ k, (feedAll { messages := ms } t).messages = ms ++ (ds.take k).map message ∧
        (t = ds.flatMap frame → k = ds.length) := by
    intro ds
    induction ds with
    | nil =>
      intro ms t _ ht
      obtain rfl := List.prefix_nil.mp ht
      exact ⟨0, (List.append_nil _).symm, fun _ => rfl⟩
    | cons d ds ih =>
      intro ms t hds ht
      have hd := hds d List.mem_cons_self
      rw [List.flatMap_cons] at ht
      by_cases hframe : frame d <+: t
      · -- the first frame is complete
        obtain ⟨t', rfl⟩ := hframe
        obtain ⟨k, hk, hall⟩ := ih (ms ++ [message d]) t'
          (fun d' hd' => hds d' (List.mem_cons_of_mem _ hd'))
          ((List.prefix_append_right_inj _).mp ht)
        refine ⟨k + 1, ?_, fun h => ?_⟩
        · rw [feedAll_append, feedAll_frame hd, hk, List.take_succ_cons, List.map_cons,
            List.append_assoc, List.singleton_append]
        · rw [List.flatMap_cons] at h
          rw [hall (List.append_cancel_left h), List.length_cons]
      · have hcut : t <+: frame d :=
          (List.prefix_or_prefix_of_prefix ht (List.prefix_append _ _)).resolve_right hframe
        refine ⟨0, ?_, fun h => ?_⟩
        · rw [messages_of_prefix_frame hd ms hcut fun h => hframe (h ▸ List.prefix_rfl)]
          exact (List.append_nil _).symm
        · exact absurd (h ▸ List.prefix_append _ _) hframe
  exact hgo ds [] t hds ht

end frames

end EventStream
