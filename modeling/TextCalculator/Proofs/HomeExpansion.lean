import TextCalculator.Proofs.Trimming
import TextCalculator.Settings

/-!
# Home expansion prepends the home directory

What comes behind a tilde is not kept as it is: idle segments at its two ends are dropped, and only
then is it put behind the home directory. `FilePath.IsInner` says what is left as a part of the
bytes, and there is one such part (`FilePath.isInner_iff`). Its first segment is not idle, so it
does not begin with a slash and never takes the place of the home directory.

Idle segments are no components, wherever they stand. Hence a path and its inner part have the same
ones (`FilePath.IsInner.steps_eq`), and a path below a directory has those of the directory and then
its own (`FilePath.components_join`).
-/

namespace TextCalculator

namespace FilePath

/-! ### Dividing at slashes and joining again -/

/-- The division into segments is the division of a list, so what is known of that may be used. -/
theorem splitSlashes_eq_splitOn (bs : List UInt8) : splitSlashes bs = bs.splitOn slash := by
  induction bs with
  | nil => rfl
  | cons b bs ih =>
    obtain ⟨segment, rest, hsplit⟩ := List.exists_cons_of_ne_nil (List.splitOn_ne_nil slash bs)
    rw [splitSlashes, List.splitOn_cons_eq_if_modifyHead, ih, hsplit]
    simp only [beq_iff_eq, List.modifyHead_cons]

theorem splitSlashes_ne_nil (bs : List UInt8) : splitSlashes bs ≠ [] := by
  rw [splitSlashes_eq_splitOn]
  exact List.splitOn_ne_nil slash bs

/-- A slash divides, whatever stands on its two sides. -/
theorem splitSlashes_append (bs cs : List UInt8) :
    splitSlashes (bs ++ slash :: cs) = splitSlashes bs ++ splitSlashes cs := by
  simp only [splitSlashes_eq_splitOn, List.splitOn_append_cons_self]

/-- Joining the segments gives the bytes back. -/
theorem joinSlashes_splitSlashes (bs : List UInt8) : joinSlashes (splitSlashes bs) = bs := by
  rw [joinSlashes, splitSlashes_eq_splitOn, List.intercalate_splitOn]

/-- So the segments determine the bytes. -/
theorem splitSlashes_injective : Function.Injective splitSlashes :=
  Function.LeftInverse.injective joinSlashes_splitSlashes

/-- No segment has a slash in it. -/
theorem not_mem_of_mem_splitSlashes {bs segment : List UInt8} (h : segment ∈ splitSlashes bs) :
    slash ∉ segment := by
  induction bs generalizing segment with
  | nil => exact List.eq_of_mem_singleton h ▸ List.not_mem_nil
  | cons b bs ih =>
    obtain ⟨first, rest, hsplit⟩ := List.exists_cons_of_ne_nil (splitSlashes_ne_nil bs)
    rw [splitSlashes, hsplit] at h
    rw [hsplit] at ih
    split at h
    · rcases List.mem_cons.1 h with rfl | h
      · exact List.not_mem_nil
      · exact ih h
    · next hb =>
      rcases List.mem_cons.1 h with rfl | h
      · exact List.not_mem_cons_of_ne_of_not_mem (Ne.symm hb) (ih List.mem_cons_self)
      · exact ih (List.mem_cons_of_mem _ h)

/-- Segments without slashes are got back after joining, if there is at least one. -/
theorem splitSlashes_joinSlashes {segments : List (List UInt8)} (hne : segments ≠ [])
    (h : ∀ segment ∈ segments, slash ∉ segment) :
    splitSlashes (joinSlashes segments) = segments := by
  rw [splitSlashes_eq_splitOn, joinSlashes, List.splitOn_intercalate slash h hne]

theorem splitSlashes_of_not_mem {segment : List UInt8} (h : slash ∉ segment) :
    splitSlashes segment = [segment] := by
  rw [splitSlashes_eq_splitOn, List.splitOn_eq_singleton h]

/-- Segments in front, each with its slash, are segments of the whole. -/
theorem splitSlashes_flatMap_append {front : List (List UInt8)}
    (h : ∀ segment ∈ front, slash ∉ segment) (bs : List UInt8) :
    splitSlashes (front.flatMap (· ++ [slash]) ++ bs) = front ++ splitSlashes bs := by
  induction front with
  | nil => rfl
  | cons segment front ih =>
    obtain ⟨hsegment, hfront⟩ := List.forall_mem_cons.1 h
    rw [List.flatMap_cons, List.append_assoc, List.append_assoc, List.singleton_append,
      splitSlashes_append, splitSlashes_of_not_mem hsegment, ih hfront]
    rfl

/-- So are segments at the end, each after its slash. -/
theorem splitSlashes_append_flatMap {back : List (List UInt8)}
    (h : ∀ segment ∈ back, slash ∉ segment) (bs : List UInt8) :
    splitSlashes (bs ++ back.flatMap (slash :: ·)) = splitSlashes bs ++ back := by
  induction back generalizing bs with
  | nil => simp only [List.flatMap_nil, List.append_nil]
  | cons segment back ih =>
    obtain ⟨hsegment, hback⟩ := List.forall_mem_cons.1 h
    rw [List.flatMap_cons, List.cons_append, splitSlashes_append, ih hback,
      splitSlashes_of_not_mem hsegment]
    rfl

theorem isIdle_iff {segment : List UInt8} :
    isIdle segment = true ↔ segment = [] ∨ segment = here := by
  rw [isIdle, Bool.or_eq_true, decide_eq_true_eq, decide_eq_true_eq]

/-- An idle segment has no slash in it. -/
theorem not_mem_of_isIdle {segment : List UInt8} (h : isIdle segment = true) : slash ∉ segment := by
  rcases isIdle_iff.1 h with rfl | rfl <;> decide

/-- Idle segments around some bytes are around their segments. -/
theorem splitSlashes_around {front back : List (List UInt8)}
    (hfront : ∀ segment ∈ front, isIdle segment = true)
    (hback : ∀ segment ∈ back, isIdle segment = true) (rest : List UInt8) :
    splitSlashes (front.flatMap (· ++ [slash]) ++ rest ++ back.flatMap (slash :: ·)) =
      front ++ splitSlashes rest ++ back := by
  rw [splitSlashes_append_flatMap fun segment hs ↦ not_mem_of_isIdle (hback segment hs),
    splitSlashes_flatMap_append fun segment hs ↦ not_mem_of_isIdle (hfront segment hs)]

/-- What comes behind the first segment. -/
theorem exists_of_splitSlashes_eq_cons {bs first : List UInt8} {later : List (List UInt8)}
    (h : splitSlashes bs = first :: later) :
    ∃ after, bs = first ++ after ∧ splitSlashes after = [] :: later := by
  have hmem (segment : List UInt8) (hsegment : segment ∈ first :: later) : slash ∉ segment :=
    not_mem_of_mem_splitSlashes (h ▸ hsegment)
  obtain ⟨hfirst, hlater⟩ := List.forall_mem_cons.1 hmem
  refine ⟨later.flatMap (slash :: ·), splitSlashes_injective ?_,
    splitSlashes_append_flatMap hlater []⟩
  rw [splitSlashes_append_flatMap hlater, splitSlashes_of_not_mem hfirst, h]
  rfl

/-- Only a slash ends an empty first segment. -/
theorem head?_of_splitSlashes_eq {bs : List UInt8} {later : List (List UInt8)}
    (h : splitSlashes bs = [] :: later) (hne : bs ≠ []) : bs.head? = some slash := by
  obtain ⟨b, bs, rfl⟩ := List.exists_cons_of_ne_nil hne
  obtain ⟨first, rest, hsplit⟩ := List.exists_cons_of_ne_nil (splitSlashes_ne_nil bs)
  rw [splitSlashes, hsplit] at h
  split at h
  · next hb => exact congrArg some hb
  · exact nomatch h

/-! ### The inner part -/

/-- Bytes without the idle segments at the start and at the end. Each of these goes with the slash
between it and what is left. -/
structure IsInner (bytes rest : List UInt8) : Prop where
  /-- Only idle segments are dropped, and what is between them is left as it is. -/
  exists_around : ∃ front back : List (List UInt8), (∀ segment ∈ front, isIdle segment = true) ∧
    (∀ segment ∈ back, isIdle segment = true) ∧
    bytes = front.flatMap (· ++ [slash]) ++ rest ++ back.flatMap (slash :: ·)
  /-- What is left does not begin with an idle segment. -/
  not_isIdle_head : rest ≠ [] →
    ∀ segment, (splitSlashes rest).head? = some segment → isIdle segment = false
  /-- What is left does not end with an idle segment. -/
  not_isIdle_last : rest ≠ [] →
    ∀ segment, (splitSlashes rest).getLast? = some segment → isIdle segment = false

/-- What is left does not begin with a slash, or an idle segment would be left. -/
theorem IsInner.head?_ne {bytes rest : List UInt8} (h : IsInner bytes rest) :
    rest.head? ≠ some slash := by
  intro hhead
  obtain ⟨rest, rfl⟩ := List.head?_eq_some_iff.1 hhead
  exact nomatch h.not_isIdle_head (List.cons_ne_nil _ _) [] rfl

end FilePath

namespace Settings

open FilePath

variable {front segments back : List (List UInt8)}

/-- Trimming drops idle segments on the left and then on the right. -/
theorem trimIdle_eq_rdropWhile (segments : List (List UInt8)) :
    trimIdle segments = (segments.dropWhile isIdle).rdropWhile isIdle := rfl

theorem trimIdle_eq_nil (h : ∀ segment ∈ segments, isIdle segment = true) :
    trimIdle segments = [] := by
  rw [trimIdle_eq_rdropWhile, List.dropWhile_eq_nil_iff.2 h, List.rdropWhile_nil]

/-- Idle segments around others are what is dropped, if those end with segments that are not idle.
-/
theorem trimIdle_append (hfront : ∀ segment ∈ front, isIdle segment = true)
    (hback : ∀ segment ∈ back, isIdle segment = true)
    (hhead : ∀ segment, segments.head? = some segment → isIdle segment = false)
    (hlast : ∀ segment, segments.getLast? = some segment → isIdle segment = false) :
    trimIdle (front ++ segments ++ back) = segments :=
  rdropWhile_dropWhile_append hfront hback hhead hlast

/-- What is trimmed is idle. -/
theorem exists_eq_append_trimIdle (segments : List (List UInt8)) :
    ∃ front back, (∀ segment ∈ front, isIdle segment = true) ∧
      (∀ segment ∈ back, isIdle segment = true) ∧
      segments = front ++ trimIdle segments ++ back :=
  exists_eq_append_rdropWhile_dropWhile isIdle segments

/-- Nothing is left exactly if all segments are idle. -/
theorem trimIdle_eq_nil_iff :
    trimIdle segments = [] ↔ ∀ segment ∈ segments, isIdle segment = true := by
  refine ⟨fun hnil ↦ ?_, trimIdle_eq_nil⟩
  obtain ⟨front, back, hfront, hback, heq⟩ := exists_eq_append_trimIdle segments
  rw [heq, hnil, List.append_nil]
  exact List.forall_mem_append.2 ⟨hfront, hback⟩

/-- What is left begins with a segment that is not idle. -/
theorem not_isIdle_of_head?_trimIdle {segment : List UInt8}
    (h : (trimIdle segments).head? = some segment) : isIdle segment = false := by
  obtain ⟨more, hmore⟩ := List.head?_eq_some_iff.1 h
  obtain ⟨tail, htail⟩ : trimIdle segments <+: segments.dropWhile isIdle :=
    List.rdropWhile_prefix isIdle _
  have hhead : (segments.dropWhile isIdle).head? = some segment := by
    rw [← htail, hmore]
    rfl
  simpa only [hhead] using List.head?_dropWhile_not isIdle segments

theorem not_isIdle_of_getLast?_trimIdle {segment : List UInt8}
    (h : (trimIdle segments).getLast? = some segment) : isIdle segment = false := by
  have hne : trimIdle segments ≠ [] := fun hnil ↦ nomatch hnil ▸ h
  have hlast := List.rdropWhile_last_not isIdle (segments.dropWhile isIdle) hne
  obtain rfl := Option.some.inj ((List.getLast?_eq_some_getLast hne).symm.trans h)
  exact Bool.eq_false_iff.2 hlast

end Settings

namespace FilePath

/-- The segments of the bytes are idle ones around the segments of what is left. -/
theorem IsInner.exists_splitSlashes_eq {bytes rest : List UInt8} (h : IsInner bytes rest) :
    ∃ front back, (∀ segment ∈ front, isIdle segment = true) ∧
      (∀ segment ∈ back, isIdle segment = true) ∧
      splitSlashes bytes = front ++ splitSlashes rest ++ back := by
  obtain ⟨front, back, hfront, hback, rfl⟩ := h.exists_around
  exact ⟨front, back, hfront, hback, splitSlashes_around hfront hback rest⟩

/-- An inner part is what is left between the idle segments. -/
theorem IsInner.eq_joinSlashes {bytes rest : List UInt8} (h : IsInner bytes rest) :
    rest = joinSlashes (Settings.trimIdle (splitSlashes bytes)) := by
  obtain ⟨front, back, hfront, hback, hsplit⟩ := h.exists_splitSlashes_eq
  rw [hsplit]
  rcases eq_or_ne rest [] with rfl | hne
  · rw [Settings.trimIdle_eq_nil]
    · rfl
    · exact List.forall_mem_append.2 ⟨List.forall_mem_append.2 ⟨hfront, by decide⟩, hback⟩
  · rw [Settings.trimIdle_append hfront hback (h.not_isIdle_head hne) (h.not_isIdle_last hne),
      joinSlashes_splitSlashes]

variable {bytes rest : List UInt8} {later : List (List UInt8)}

/-- If all segments are idle, the empty rest stands in front of them. -/
theorem isInner_nil (h : splitSlashes bytes = [] :: later)
    (hidle : ∀ segment ∈ later, isIdle segment = true) : IsInner bytes [] where
  exists_around := by
    refine ⟨[], later, nofun, hidle, splitSlashes_injective (h.trans ?_)⟩
    exact (splitSlashes_around (List.forall_mem_nil _) hidle []).symm
  not_isIdle_head := absurd rfl
  not_isIdle_last := absurd rfl

/-- Trimming the segments behind a slash and joining them leaves what is inner. -/
theorem isInner_joinSlashes (h : splitSlashes bytes = [] :: later)
    (hne : Settings.trimIdle later ≠ []) :
    IsInner bytes (joinSlashes (Settings.trimIdle later)) := by
  obtain ⟨front, back, hfront, hback, heq⟩ := Settings.exists_eq_append_trimIdle later
  have hmem (segment : List UInt8) (hs : segment ∈ Settings.trimIdle later) : slash ∉ segment := by
    refine not_mem_of_mem_splitSlashes (h ▸ List.mem_cons_of_mem _ ?_)
    rw [heq]
    exact List.mem_append_left _ (List.mem_append_right _ hs)
  have hsplit := splitSlashes_joinSlashes hne hmem
  have hfront' : ∀ segment ∈ [] :: front, isIdle segment = true :=
    List.forall_mem_cons.2 ⟨rfl, hfront⟩
  refine ⟨⟨[] :: front, back, hfront', hback, splitSlashes_injective ?_⟩,
    fun _ segment hs ↦ ?_, fun _ segment hs ↦ ?_⟩
  · rw [splitSlashes_around hfront' hback, hsplit, h]
    exact congrArg ([] :: ·) heq
  · exact Settings.not_isIdle_of_head?_trimIdle (hsplit ▸ hs)
  · exact Settings.not_isIdle_of_getLast?_trimIdle (hsplit ▸ hs)

/-- The inner part of bytes that are empty or begin with a slash. -/
theorem isInner_iff (h : splitSlashes bytes = [] :: later) :
    IsInner bytes rest ↔ rest = joinSlashes (Settings.trimIdle later) := by
  constructor
  · intro hinner
    rw [hinner.eq_joinSlashes, h]
    rfl
  · rintro rfl
    rcases eq_or_ne (Settings.trimIdle later) [] with hnil | hne
    · rw [hnil]
      exact isInner_nil h (Settings.trimIdle_eq_nil_iff.1 hnil)
    · exact isInner_joinSlashes h hne

/-! ### Components -/

/-- What a path names on its way. -/
inductive Component
  /-- The directory that all others are below, which a path names by beginning with a slash. -/
  | root
  /-- The directory that a path is looked up in, if this is what it names first. -/
  | here
  /-- The directory above. -/
  | above
  /-- A directory or a file by its name. -/
  | name (bytes : List UInt8)
deriving DecidableEq

/-- The component of a segment that is not idle. -/
def Component.ofSegment (segment : List UInt8) : Component :=
  if segment = FilePath.above then .above else .name segment

/-- The components of segments, without the idle ones. -/
def steps (segments : List (List UInt8)) : List Component :=
  (segments.filter (!isIdle ·)).map .ofSegment

/-- Where a path begins, if it says so. -/
def start (p : FilePath) : List Component :=
  if p.bytes.head? = some slash then [.root]
  else if p.segments.head? = some here then [.here]
  else []

/-- The components of a path. -/
def components (p : FilePath) : List Component := p.start ++ steps p.segments

theorem steps_append (segments more : List (List UInt8)) :
    steps (segments ++ more) = steps segments ++ steps more := by
  rw [steps, List.filter_append, List.map_append]
  rfl

/-- Idle segments are no steps. -/
theorem steps_eq_nil {segments : List (List UInt8)}
    (h : ∀ segment ∈ segments, isIdle segment = true) : steps segments = [] := by
  rw [steps, List.map_eq_nil_iff, List.filter_eq_nil_iff]
  exact fun segment hs hidle ↦ by simp [h segment hs] at hidle

/-- Bytes and their inner part have the same components. -/
theorem IsInner.steps_eq {bytes rest : List UInt8} (h : IsInner bytes rest) :
    steps (splitSlashes rest) = steps (splitSlashes bytes) := by
  obtain ⟨front, back, hfront, hback, hsplit⟩ := h.exists_splitSlashes_eq
  rw [hsplit, steps_append, steps_append, steps_eq_nil hfront, steps_eq_nil hback,
    List.nil_append, List.append_nil]

/-- Where a path begins is known from what is in front of a slash. -/
theorem start_append_slash (base rest : List UInt8) :
    start ⟨base ++ slash :: rest⟩ = start ⟨base ++ [slash]⟩ := by
  obtain ⟨first, later, hsplit⟩ := List.exists_cons_of_ne_nil (splitSlashes_ne_nil base)
  simp only [start, segments, splitSlashes_append, hsplit, List.cons_append, List.head?_cons]
  rcases base with - | ⟨b, base⟩ <;> rfl

/-- A slash at the end is no component. -/
theorem components_concat_slash {base : List UInt8} (h : base ≠ []) :
    components ⟨base ++ [slash]⟩ = components ⟨base⟩ := by
  obtain ⟨first, later, hsplit⟩ := List.exists_cons_of_ne_nil (splitSlashes_ne_nil base)
  have hstart : start ⟨base ++ [slash]⟩ = start ⟨base⟩ := by
    simp only [start, segments, splitSlashes_append, hsplit, List.cons_append, List.head?_cons,
      List.head?_append_of_ne_nil _ h]
  rw [components, components, hstart, segments, splitSlashes_append, steps_append]
  show _ ++ (_ ++ []) = _
  rw [List.append_nil, segments]

/-- A path below a directory has the components of the directory and then its own. -/
theorem components_join {directory rest : List UInt8} (h : directory ≠ [])
    (hrest : rest.head? ≠ some slash) :
    components ⟨Settings.join directory rest⟩ =
      components ⟨directory⟩ ++ steps (splitSlashes rest) := by
  have hslash (base : List UInt8) : components ⟨base ++ slash :: rest⟩ =
      components ⟨base ++ [slash]⟩ ++ steps (splitSlashes rest) := by
    rw [components, components, start_append_slash, segments, segments, splitSlashes_append,
      splitSlashes_append, steps_append, steps_append]
    show _ = _ ++ (_ ++ []) ++ _
    rw [List.append_nil, List.append_assoc]
  rw [Settings.join, if_neg hrest]
  split
  · next hlast =>
    obtain ⟨base, rfl⟩ := List.getLast?_eq_some_iff.1 (hlast.resolve_left h)
    rw [List.append_assoc]
    exact hslash base
  · rw [hslash, components_concat_slash h]

/-- An idle first segment says where the path begins. -/
theorem components_of_isIdle {p : FilePath} {first : List UInt8} {later : List (List UInt8)}
    (h : p.segments = first :: later) (hne : p.bytes ≠ []) (hidle : isIdle first = true) :
    p.components = (if first = [] then .root else .here) :: steps later := by
  rw [components, h, ← List.singleton_append, steps_append,
    steps_eq_nil (List.forall_mem_singleton.2 hidle), List.nil_append]
  rcases isIdle_iff.1 hidle with rfl | rfl
  · rw [start, if_pos (head?_of_splitSlashes_eq h hne)]
    rfl
  · obtain ⟨after, hbytes, -⟩ := exists_of_splitSlashes_eq_cons h
    rw [start, hbytes, h]
    rfl

/-- A path whose first segment is not idle begins with the component of this segment. -/
theorem components_of_not_isIdle {p : FilePath} {first : List UInt8} {later : List (List UInt8)}
    (h : p.segments = first :: later) (hidle : isIdle first = false) :
    p.components = .ofSegment first :: steps later := by
  have hfirst := mt isIdle_iff.2 (Bool.eq_false_iff.1 hidle)
  obtain ⟨after, hbytes, -⟩ := exists_of_splitSlashes_eq_cons h
  have hslash := not_mem_of_mem_splitSlashes (h ▸ List.mem_cons_self : first ∈ p.segments)
  obtain ⟨b, first, rfl⟩ := List.exists_cons_of_ne_nil (mt .inl hfirst)
  have hstart : p.start = [] := by
    rw [start, hbytes, if_neg, h, if_neg]
    · exact fun hhere ↦ hfirst (.inr (Option.some.inj hhere))
    · exact fun hhead ↦ hslash (Option.some.inj hhead ▸ List.mem_cons_self)
  rw [components, hstart, h, steps, List.filter_cons_of_pos (by rw [hidle]; rfl)]
  rfl

/-- A path begins with a tilde if its first segment is one. -/
theorem head?_components_eq_tilde_iff {p : FilePath} :
    p.components.head? = some (.name Settings.tilde) ↔
      p.segments.head? = some Settings.tilde := by
  obtain ⟨first, later, hsegments⟩ := List.exists_cons_of_ne_nil (splitSlashes_ne_nil p.bytes)
  rw [← segments] at hsegments
  rw [hsegments, List.head?_cons, Option.some.injEq]
  rcases hidle : isIdle first with - | -
  · rw [components_of_not_isIdle hsegments hidle, List.head?_cons, Component.ofSegment]
    split
    · next habove => simp [habove]
    · rw [Option.some.injEq, Component.name.injEq]
  · have hfirst : first ≠ Settings.tilde := fun heq ↦ nomatch heq ▸ hidle
    refine iff_of_false (fun hhead ↦ ?_) hfirst
    rcases eq_or_ne p.bytes [] with hnil | hne
    · rw [components, start, segments, hnil] at hhead
      exact nomatch hhead
    · rw [components_of_isIdle hsegments hne hidle] at hhead
      split at hhead <;> exact nomatch hhead

end FilePath

namespace Settings

open FilePath

/-- If the user has named a path and there is a home directory, a tilde is replaced. -/
theorem historyPath_eq {bytes home : List UInt8} (hbytes : bytes ≠ []) (hhome : home ≠ []) :
    historyPath (some bytes) (some home) = expandHome home ⟨bytes⟩ := by
  rcases bytes with - | ⟨b, bytes⟩
  · exact absurd rfl hbytes
  rcases home with - | ⟨h, home⟩
  · exact absurd rfl hhome
  rfl

/-- A path without a tilde as its first segment is left as it is. -/
theorem expandHome_of_ne {home : List UInt8} {path : FilePath}
    (h : path.segments.head? ≠ some tilde) : expandHome home path = path := by
  rw [expandHome]
  split
  · rfl
  · next first later hsegments =>
    exact if_neg fun hfirst ↦ h (by rw [hsegments, hfirst]; rfl)

/-- A tilde as the first segment is replaced, and of the other segments the idle ones at both ends
are dropped. -/
theorem expandHome_of_eq {home : List UInt8} {path : FilePath} {later : List (List UInt8)}
    (h : path.segments = tilde :: later) :
    expandHome home path = ⟨join home (joinSlashes (trimIdle later))⟩ := by
  rw [expandHome, h]
  rfl

/-- What does not begin with a slash comes behind the directory, with one slash between them. -/
theorem join_eq {directory rest : List UInt8} (h : directory ≠ [])
    (hrest : rest.head? ≠ some slash) :
    join directory rest =
      directory ++ (if directory.getLast? = some slash then [] else [slash]) ++ rest := by
  rw [join, if_neg hrest]
  split
  · next hlast => rw [if_pos (hlast.resolve_left h), List.append_nil]
  · next hlast =>
    rw [if_neg fun hslash ↦ hlast (.inr hslash), List.append_assoc]
    rfl

/-- **Home expansion prepends the home directory.** If the user names no path of the history, or the
empty one, it is `history.txt`. A path with a first component other than the tilde is left as it is,
byte for byte. What is behind a tilde loses the idle segments at its start and at its end, which
leaves exactly one rest, and one without a slash at its start. So the home directory stays, and the
rest comes behind it, with a slash between the two unless the home directory ends with one. The
components are those of the home directory and then those behind the tilde. -/
theorem historyPath_prepends_home {home : List UInt8} (hhome : home ≠ []) :
    historyPath none (some home) = .ofString "history.txt" ∧
    historyPath (some []) (some home) = .ofString "history.txt" ∧
    ∀ bytes, bytes ≠ [] →
      ((components ⟨bytes⟩).head? ≠ some (.name tilde) →
        historyPath (some bytes) (some home) = ⟨bytes⟩) ∧
      ((components ⟨bytes⟩).head? = some (.name tilde) →
        ∃ after rest, bytes = tilde ++ after ∧ (∀ other, IsInner after other ↔ other = rest) ∧
          rest.head? ≠ some slash ∧
          historyPath (some bytes) (some home) =
            ⟨home ++ (if home.getLast? = some slash then [] else [slash]) ++ rest⟩ ∧
          components (historyPath (some bytes) (some home)) =
            components ⟨home⟩ ++ (components ⟨bytes⟩).tail) := by
  refine ⟨rfl, rfl, fun bytes hbytes ↦ ⟨fun hhead ↦ ?_, fun hhead ↦ ?_⟩⟩
  · rw [historyPath_eq hbytes hhome]
    exact expandHome_of_ne fun h ↦ hhead (head?_components_eq_tilde_iff.2 h)
  · obtain ⟨later, hsegments⟩ := List.head?_eq_some_iff.1 (head?_components_eq_tilde_iff.1 hhead)
    obtain ⟨after, hafter, hsplit⟩ := exists_of_splitSlashes_eq_cons hsegments
    -- the rest is made of the segments after the tilde, without the idle ones at both ends
    have hinner : IsInner after (joinSlashes (trimIdle later)) := (isInner_iff hsplit).2 rfl
    refine ⟨after, joinSlashes (trimIdle later), hafter, fun other ↦ isInner_iff hsplit,
      hinner.head?_ne, ?_, ?_⟩
    · rw [historyPath_eq hbytes hhome, expandHome_of_eq hsegments, join_eq hhome hinner.head?_ne]
    · rw [historyPath_eq hbytes hhome, expandHome_of_eq hsegments,
        components_join hhome hinner.head?_ne, hinner.steps_eq, hsplit]
      rw [components_of_not_isIdle hsegments rfl]
      rfl

/-- A rest of hidden files and dots below the home directory, and a tilde that is only the start of
a name. -/
theorem historyPath_prepends_home_at_dots :
    (FilePath.ofString "/home/u").bytes ≠ [] ∧
    historyPath (some (FilePath.ofString "~u/x").bytes) (some (FilePath.ofString "/home/u").bytes) =
      .ofString "~u/x" ∧
    historyPath (some (FilePath.ofString "~//./.x/../y/.").bytes)
      (some (FilePath.ofString "/home/u").bytes) = .ofString "/home/u/.x/../y" ∧
    components (.ofString "/home/u/.x/../y") =
      components (.ofString "/home/u") ++ (components (.ofString "~//./.x/../y/.")).tail := by
  have hhome : (FilePath.ofString "/home/u").bytes ≠ [] := by decide +kernel
  have hexpanded : historyPath (some (FilePath.ofString "~//./.x/../y/.").bytes)
      (some (FilePath.ofString "/home/u").bytes) = .ofString "/home/u/.x/../y" := by
    decide +kernel
  obtain ⟨-, -, hpath⟩ := historyPath_prepends_home hhome
  obtain ⟨hleft, -⟩ := hpath (FilePath.ofString "~u/x").bytes (by decide +kernel)
  obtain ⟨-, htilde⟩ := hpath (FilePath.ofString "~//./.x/../y/.").bytes (by decide +kernel)
  obtain ⟨_, _, -, -, -, -, hcomponents⟩ := htilde (by decide +kernel)
  exact ⟨hhome, hleft (by decide +kernel), hexpanded, hexpanded ▸ hcomponents⟩

end Settings

end TextCalculator
