/-
# Contractions.Proofs.Sharing — a main table that several tailorings write.

What one tailoring writes to the main table the others find there, and so does whoever owns the
table. A packing has to tell its own offsets from handles that were written since, and all it has
for that is the memory of the words that it wrote.  Its own attachments are safe: they strike the
code point from the memory.  Nobody else can do that.  So when somebody else writes a handle, it is
read as a handle unless the word happens to be the one that the memory lists, and in that case it is
read back as the node that the old offset stood for.  `read_as_handle_iff` says that this is the one
exception, and `shared_handle_misread` that it occurs.

The course of a workspace is a list of events.  What an event means for one tailoring is said once,
in `Workspace.Stems`, and the laws follow it from event to event.
-/
import Contractions.Proofs.Attachments
import Contractions.Workspace

namespace Contractions

namespace Workspace

/-! ## The course of a workspace -/

/-- One thing that can happen in a workspace. -/
inductive Event where
  /-- A request is performed on an open tailoring. -/
  | perform (number : Nat) (request : Session.Request)
  /-- Somebody writes straight to a main table. -/
  | assign (table : Nat) (codePoint : UInt16) (element : Element)
  /-- An empty tailoring is opened on a main table. -/
  | opened (table : Nat) (sizing : Sizing)
  | copied (number : Nat)
  | closed (number : Nat)

/-- The workspace behind an event; what is asked of a closed tailoring does nothing. -/
def undergo (workspace : Workspace) : Event → Workspace
  | .perform number request => ((workspace.perform number request).map Prod.snd).getD workspace
  | .assign table codePoint element => workspace.assign table codePoint element
  | .opened table sizing => (workspace.openTailoring table sizing).2
  | .copied number => ((workspace.copyTailoring number).map Prod.snd).getD workspace
  | .closed number => (workspace.closeTailoring number).getD workspace

/-- The workspace behind several events in turn. -/
def after (workspace : Workspace) : List Event → Workspace
  | [] => workspace
  | event :: events => (workspace.undergo event).after events

/-- An open tailoring with its main table. -/
def session? (workspace : Workspace) (number : Nat) : Option Session :=
  (workspace.member? number).map fun member =>
    { tailoring := member.tailoring, table := workspace.table member.table }

/-- Something is asked of an open tailoring, and it is not refused. -/
def Grants (workspace : Workspace) (number : Nat) (request : Session.Request) : Prop :=
  ∃ session answer, workspace.session? number = some session ∧
    (session.perform request).1 = .ok answer

/-- A tailoring is not packed in a course, or each time this is refused. -/
def Unpacked (number : Nat) : Workspace → List Event → Prop
  | _, [] => True
  | workspace, event :: events =>
    (∀ base classOf, event = .perform number (.pack base classOf) →
      ¬ workspace.Grants number (.pack base classOf)) ∧
    (workspace.undergo event).Unpacked number events

/-- A tailoring attaches a code point in a course. -/
def Attaches (number : Nat) (codePoint : UInt16) : Workspace → List Event → Prop
  | _, [] => False
  | workspace, event :: events =>
    (∃ handle, event = .perform number (.attach codePoint handle) ∧
      workspace.Grants number (.attach codePoint handle)) ∨
    (workspace.undergo event).Attaches number codePoint events

/-! ## What an event means for one tailoring -/

/-- Where the session of a tailoring behind an event comes from. -/
inductive Stems (workspace : Workspace) (number : Nat) (event : Event) (later : Session) :
    Prop where
  /-- The tailoring itself was asked for something. -/
  | own {session : Session} {request : Session.Request}
      (known : workspace.session? number = some session)
      (asked : event = .perform number request) (eq : later = (session.perform request).2)
  /-- Something else happened, and the main table may have been written. -/
  | other {session : Session} (known : workspace.session? number = some session)
      (foreign : ∀ request, event ≠ .perform number request)
      (same : later.tailoring = session.tailoring)
  /-- The tailoring was opened or copied just now. -/
  | opened {sizing : Sizing} (new : number = workspace.members.size)
      (empty : later.tailoring = .empty sizing)
  | copied {source : Nat} {session : Session} (new : number = workspace.members.size)
      (known : workspace.session? source = some session)
      (copy : later.tailoring = session.tailoring.copy)

variable {workspace : Workspace} {number : Nat} {session later : Session}

theorem session?_eq_some : workspace.session? number = some session ↔
    ∃ member, workspace.member? number = some member ∧
      session = { tailoring := member.tailoring, table := workspace.table member.table } := by
  unfold session?
  rw [Option.map_eq_some_iff]
  exact exists_congr fun member => and_congr_right fun _ => eq_comm

/-- A main table without slots is the one that is read where there is none. -/
theorem table_eq_default {table : MainTable} (none : table.size = 0) : table = default := by
  refine MainTable.ext_get none fun codePoint => ?_
  rw [MainTable.get_of_size_le (by omega), MainTable.get_of_size_le (Nat.zero_le _)]

/-! ### Putting, entering and closing -/

/-- The session of a member that was put back. -/
theorem session?_put_self {member : Member} (known : workspace.member? number = some member)
    (session : Session) (size : session.table.size = (workspace.table member.table).size) :
    (workspace.put number member session).session? number = some session := by
  have inRange : number < workspace.members.size :=
    (Array.getElem?_eq_some_iff.mp (Option.join_eq_some_iff.mp known)).1
  have there : (workspace.put number member session).member? number =
      some { member with tailoring := session.tailoring } := by
    unfold member? put
    rw [Array.getElem?_setIfInBounds_self_of_lt inRange]
    rfl
  have table : (workspace.put number member session).table member.table = session.table := by
    unfold Workspace.table put
    by_cases inside : member.table < workspace.tables.size
    · rw [Array.getElem?_setIfInBounds_self_of_lt inside, Option.getD_some]
    · -- a write to a main table that is not there is dropped, and such a table has no slots
      unfold Workspace.table at size
      rw [Array.getElem?_eq_none (Nat.le_of_not_lt inside)] at size
      rw [Array.getElem?_eq_none (by rwa [Array.size_setIfInBounds, ← Nat.not_lt])]
      exact (table_eq_default size).symm
  refine session?_eq_some.mpr ⟨_, there, ?_⟩
  show session = { tailoring := session.tailoring, table := _ }
  rw [table]

theorem member?_put_of_ne {member : Member} {other : Nat} (different : number ≠ other) :
    (workspace.put number member session).member? other = workspace.member? other := by
  unfold member? put
  rw [Array.getElem?_setIfInBounds_ne different]

theorem member?_enter (workspace : Workspace) (member : Member) (number : Nat) :
    (workspace.enter member).2.member? number =
      if number = workspace.members.size then some member else workspace.member? number := by
  unfold member? enter
  rw [Array.getElem?_push]
  split <;> rfl

theorem member?_close (workspace : Workspace) (closing number : Nat) :
    ({ workspace with members := workspace.members.setIfInBounds closing none } : Workspace).member?
        number = if number = closing then none else workspace.member? number := by
  unfold member?
  by_cases same : number = closing
  · rw [if_pos same, same, Array.getElem?_setIfInBounds_self]
    split <;> rfl
  · rw [if_neg same, Array.getElem?_setIfInBounds_ne (Ne.symm same)]

/-! ### The cases -/

/-- A tailoring that is as it was stems from itself. -/
theorem stems_of_member?_eq {event : Event} {after : Workspace}
    (arrives : after.session? number = some later)
    (same : after.member? number = workspace.member? number)
    (foreign : ∀ request, event ≠ .perform number request) :
    workspace.Stems number event later := by
  obtain ⟨member, known, rfl⟩ := session?_eq_some.mp arrives
  exact .other (session?_eq_some.mpr ⟨member, same ▸ known, rfl⟩) foreign rfl

/-- Where a tailoring is entered, each other one is as it was. -/
theorem stems_of_enter {event : Event} {member : Member}
    (arrives : (workspace.enter member).2.session? number = some later)
    (foreign : ∀ request, event ≠ .perform number request)
    (entered : number = workspace.members.size → later.tailoring = member.tailoring →
      workspace.Stems number event later) : workspace.Stems number event later := by
  by_cases new : number = workspace.members.size
  · obtain ⟨found, known, rfl⟩ := session?_eq_some.mp arrives
    rw [member?_enter, if_pos new] at known
    obtain rfl := Option.some.inj known
    exact entered new rfl
  · refine stems_of_member?_eq arrives ?_ foreign
    rw [member?_enter, if_neg new]

/-- Only the requests of a tailoring itself and its opening concern anything but its main table. -/
theorem stems_of_undergo {event : Event}
    (arrives : (workspace.undergo event).session? number = some later) :
    workspace.Stems number event later := by
  cases event with
  | perform asked request =>
    by_cases same : asked = number
    · subst same
      rw [undergo, perform] at arrives
      cases known : workspace.member? asked with
      | none =>
        rw [known] at arrives
        obtain ⟨member, there, -⟩ := session?_eq_some.mp arrives
        have missing : workspace.member? asked = some member := there
        rw [known] at missing
        cases missing
      | some member =>
        rw [known] at arrives
        have put := session?_put_self known _ (Session.table_size_perform
          { tailoring := member.tailoring, table := workspace.table member.table } request)
        refine .own (session?_eq_some.mpr ⟨member, known, rfl⟩) rfl ?_
        exact (Option.some.inj (put.symm.trans arrives)).symm
    · refine stems_of_member?_eq arrives ?_ ?_
      · rw [undergo, perform]
        cases workspace.member? asked with
        | none => rfl
        | some member => exact member?_put_of_ne same
      · intro other equal
        exact same (Event.perform.inj equal).1
  | assign table codePoint element => exact stems_of_member?_eq arrives rfl nofun
  | opened table sizing => exact stems_of_enter arrives nofun .opened
  | copied source =>
    rw [undergo, copyTailoring] at arrives
    cases known : workspace.member? source with
    | none =>
      rw [known] at arrives
      exact stems_of_member?_eq arrives rfl nofun
    | some member =>
      rw [known] at arrives
      exact stems_of_enter arrives nofun fun new copy =>
        .copied new (session?_eq_some.mpr ⟨member, known, rfl⟩) copy
  | closed closing =>
    rw [undergo, closeTailoring] at arrives
    cases known : workspace.member? closing with
    | none =>
      rw [known] at arrives
      exact stems_of_member?_eq arrives rfl nofun
    | some member =>
      rw [known] at arrives
      obtain ⟨other, there, -⟩ := session?_eq_some.mp arrives
      have open' : number ≠ closing := by
        rintro rfl
        have gone := (member?_close workspace number number).symm.trans there
        rw [if_pos rfl] at gone
        cases gone
      refine stems_of_member?_eq arrives ?_ nofun
      exact (member?_close workspace closing number).trans (if_neg open')

/-! ## Courses from an empty workspace -/

theorem reachable_of_undergo (reached : ∀ number session, workspace.session? number = some session →
      session.tailoring.Reachable) {event : Event}
    (arrives : (workspace.undergo event).session? number = some later) :
    later.tailoring.Reachable := by
  cases stems_of_undergo arrives with
  | @own session request known asked eq =>
    rw [eq]
    exact (reached number session known).performed session.table request
  | other known foreign same => exact same ▸ reached number _ known
  | opened new empty => exact empty ▸ .opened _
  | copied new known copy => exact copy ▸ (reached _ _ known).copied

/-- Every tailoring of a workspace came about by being opened, copied and worked on. -/
theorem reachable_after (reached : ∀ number session, workspace.session? number = some session →
      session.tailoring.Reachable) {events : List Event}
    (arrives : (workspace.after events).session? number = some later) :
    later.tailoring.Reachable := by
  induction events generalizing workspace with
  | nil => exact reached number later arrives
  | cons event events ih => exact ih (fun _ _ known => reachable_of_undergo reached known) arrives

theorem lt_size_of_session? (known : workspace.session? number = some session) :
    number < workspace.members.size := by
  obtain ⟨member, there, -⟩ := session?_eq_some.mp known
  exact (Array.getElem?_eq_some_iff.mp (Option.join_eq_some_iff.mp there)).1

theorem size_le_enter (workspace : Workspace) (member : Member) :
    workspace.members.size ≤ (workspace.enter member).2.members.size := by
  show _ ≤ (workspace.members.push _).size
  rw [Array.size_push]
  omega

theorem size_le_setIfInBounds (workspace : Workspace) (number : Nat) (member : Option Member) :
    workspace.members.size ≤ (workspace.members.setIfInBounds number member).size := by
  rw [Array.size_setIfInBounds]

theorem size_le_undergo (workspace : Workspace) (event : Event) :
    workspace.members.size ≤ (workspace.undergo event).members.size := by
  cases event with
  | perform asked request =>
    rw [undergo, perform]
    cases workspace.member? asked with
    | none => exact Nat.le_refl _
    | some member => exact workspace.size_le_setIfInBounds _ _
  | assign table codePoint element => exact Nat.le_refl _
  | opened table sizing => exact workspace.size_le_enter _
  | copied source =>
    rw [undergo, copyTailoring]
    cases workspace.member? source with
    | none => exact Nat.le_refl _
    | some member => exact workspace.size_le_enter _
  | closed closing =>
    rw [undergo, closeTailoring]
    cases workspace.member? closing with
    | none => exact Nat.le_refl _
    | some member => exact workspace.size_le_setIfInBounds _ _

/-- A number is never given again, so a tailoring that is open at the end was open all the while. -/
theorem session?_of_after (given : number < workspace.members.size) {events : List Event}
    (arrives : (workspace.after events).session? number = some later) :
    ∃ session, workspace.session? number = some session := by
  induction events generalizing workspace with
  | nil => exact ⟨later, arrives⟩
  | cons event events ih =>
    obtain ⟨next, known⟩ := ih (Nat.lt_of_lt_of_le given (workspace.size_le_undergo event)) arrives
    cases stems_of_undergo known with
    | own known => exact ⟨_, known⟩
    | other known => exact ⟨_, known⟩
    | opened new => omega
    | copied new => omega

end Workspace

/-! ## What the memory lists later -/

/-- A request that is not a packing strikes one code point from the memory if it attaches it, and
nothing else. -/
theorem Session.mem_memory_perform {session : Session} {request : Session.Request}
    (unpacked : ∀ base classOf answer, request = .pack base classOf →
      (session.perform request).1 ≠ .ok answer) (relocation : Relocation) :
    relocation ∈ (session.perform request).2.tailoring.memory ↔
      relocation ∈ session.tailoring.memory ∧
        ¬ ((∃ handle, request = .attach relocation.codePoint handle) ∧
          ∃ answer, (session.perform request).1 = .ok answer) := by
  by_cases onNodes : request.onNodes = true
  · obtain ⟨-, memory, -⟩ := session.record_perform onNodes
    rw [memory]
    refine (and_iff_left ?_).symm
    rintro ⟨⟨handle, rfl⟩, -⟩
    cases onNodes
  · cases request with
    | attach codePoint handle =>
      cases found : session.tailoring.node? handle with
      | none =>
        rw [perform_attach_of_none found]
        refine (and_iff_left ?_).symm
        rintro ⟨-, answer, refused⟩
        cases refused
      | some node =>
        rw [perform_attach_of_some found]
        refine Relocation.mem_forget.trans (and_congr_right fun _ => ?_)
        constructor
        · rintro different ⟨⟨_, same⟩, -⟩
          exact different (Request.attach.inj same).1.symm
        · intro untouched same
          exact untouched ⟨⟨handle, by rw [same]⟩, _, rfl⟩
    | assign codePoint element =>
      refine (and_iff_left ?_).symm
      rintro ⟨⟨handle, other⟩, -⟩
      cases other
    | pack base classOf =>
      have same : (session.perform (.pack base classOf)).2 = session := by
        rcases session.perform_pack_cases base classOf with same | ⟨some, packable, -⟩
        · exact same
        · have granted := perform_pack_of_packable some packable classOf
          exact absurd (congrArg Prod.fst granted) (unpacked base classOf _ rfl)
      rw [same]
      refine (and_iff_left ?_).symm
      rintro ⟨⟨handle, other⟩, -⟩
      cases other
    | _ => exact absurd rfl onNodes

namespace Workspace

variable {workspace : Workspace} {number : Nat} {session later : Session}

/-- One event that does not pack a tailoring strikes a code point from its memory if the tailoring
attaches the code point, and nothing else. -/
theorem mem_memory_undergo (known : workspace.session? number = some session) {event : Event}
    (unpacked : ∀ base classOf, event = .perform number (.pack base classOf) →
      ¬ workspace.Grants number (.pack base classOf))
    (arrives : (workspace.undergo event).session? number = some later) (relocation : Relocation) :
    relocation ∈ later.tailoring.memory ↔ relocation ∈ session.tailoring.memory ∧
      ¬ ∃ handle, event = .perform number (.attach relocation.codePoint handle) ∧
        workspace.Grants number (.attach relocation.codePoint handle) := by
  have given := lt_size_of_session? known
  cases stems_of_undergo arrives with
  | @own origin request there asked eq =>
    obtain rfl := Option.some.inj (known.symm.trans there)
    subst asked
    rw [eq, Session.mem_memory_perform]
    · refine and_congr_right fun _ => not_congr ⟨?_, ?_⟩
      · rintro ⟨⟨handle, rfl⟩, answer, granted⟩
        exact ⟨handle, rfl, session, answer, known, granted⟩
      · rintro ⟨handle, same, origin, answer, there, granted⟩
        obtain rfl := Option.some.inj (known.symm.trans there)
        obtain rfl := (Event.perform.inj same).2
        exact ⟨⟨handle, rfl⟩, answer, granted⟩
    · rintro base classOf answer rfl granted
      exact unpacked base classOf rfl ⟨session, answer, known, granted⟩
  | other there foreign same =>
    obtain rfl := Option.some.inj (known.symm.trans there)
    rw [same]
    refine (and_iff_left ?_).symm
    rintro ⟨handle, asked, -⟩
    exact foreign _ asked
  | opened new => omega
  | copied new => omega

/-- Until it is packed again, a tailoring remembers what it remembered but for the code points that
it attached itself. -/
theorem mem_memory_after (known : workspace.session? number = some session) {events : List Event}
    (unpacked : workspace.Unpacked number events)
    (arrives : (workspace.after events).session? number = some later) (relocation : Relocation) :
    relocation ∈ later.tailoring.memory ↔ relocation ∈ session.tailoring.memory ∧
      ¬ workspace.Attaches number relocation.codePoint events := by
  induction events generalizing workspace session with
  | nil =>
    obtain rfl := Option.some.inj (known.symm.trans arrives)
    exact (and_iff_left id).symm
  | cons event events ih =>
    have given := Nat.lt_of_lt_of_le (lt_size_of_session? known) (workspace.size_le_undergo event)
    obtain ⟨next, reached⟩ := session?_of_after given arrives
    rw [ih reached unpacked.2 arrives, mem_memory_undergo known unpacked.1 reached, and_assoc,
      Attaches, not_or]

end Workspace

/-! ## What a packing makes of a handle that it finds -/

/-- Offsets that ascend tell the nodes apart, so an element points to one node at most. -/
theorem Element.PointsTo.unique {offsets : Array Nat} (ascends : Ascends id offsets)
    {payload other : UInt32} {element : Element} (points : element.PointsTo offsets payload)
    (pointsToo : element.PointsTo offsets other) : payload = other := by
  obtain ⟨target, rfl, start⟩ := points
  obtain ⟨_, same, startToo⟩ := pointsToo
  obtain rfl := Element.reference.inj same
  obtain ⟨inRange, first⟩ := Array.getElem?_eq_some_iff.mp start
  obtain ⟨inRange', second⟩ := Array.getElem?_eq_some_iff.mp startToo
  have equal : (⟨payload.toNat, inRange⟩ : Fin offsets.size) = ⟨other.toNat, inRange'⟩ :=
    ascends.key_inj (first.trans second.symm)
  exact UInt32.toNat_inj.mp (Fin.mk.inj equal)

namespace Session

variable {session : Session} {codePoint : UInt16}

/-- A word that the memory lists means the node that it lists there. -/
theorem refers_of_mem (sound : session.tailoring.Sound)
    (inRange : codePoint.toNat < session.table.size) {payload : UInt32}
    (listed : ⟨codePoint, session.table.get codePoint, payload⟩ ∈ session.tailoring.memory) :
    session.table.Refers session.tailoring.memory codePoint payload := by
  have handles : session.tailoring.nodes.size ≤ 0xFFFFFF := sound.handles
  have named : payload.toNat < session.tailoring.nodes.size := sound.named _ listed
  refine ⟨inRange, MainTable.reference?_eq_some_iff.mpr ?_⟩
  rw [MainTable.readThrough, Relocation.readBack_of_mem sound.ordered listed,
    Element.unpack_pack_reference (by omega)]

/-- Whatever a code point refers to, after a packing it refers to the offset of that node and of no
other. -/
theorem pointsTo_of_perform_pack {base : Nat} {classOf : UInt16 → UInt8} {answer : Answer}
    {next : Session} (packs : session.perform (.pack base classOf) = (.ok answer, next))
    (nonempty : session.tailoring.nodes.isEmpty = false) :
    ∃ packed, next.tailoring.packed = some packed ∧ ∀ codePoint payload,
      session.table.Refers session.tailoring.memory codePoint payload → ∀ other,
        (Element.unpack (next.table.get codePoint)).PointsTo packed.offsets other ↔
          other = payload := by
  have packable := packable_of_perform_pack nonempty packs
  rw [perform_pack_of_packable nonempty packable] at packs
  obtain rfl := (Prod.mk.inj packs).2
  refine ⟨_, rfl, fun codePoint payload refers other => ?_⟩
  have points := (packable.readdressed classOf).referring codePoint payload refers
  constructor
  · intro pointsToo
    exact pointsToo.unique (ascends_startsOf base session.tailoring.nodes.toList) points
  · rintro rfl
    exact points

end Session

namespace Workspace

/-- A tailoring of a workspace is packed again after several events, and by then a code point of its
main table holds the handle of a node, whoever wrote it.  The packing replaces it by the offset of
that node if the tailoring attached the code point itself in between, or if the word is not the one
that it remembered for another node.  In the remaining case it takes the word for its own and writes
the offset of the node that it remembered. -/
theorem read_as_handle_iff (tables : Array MainTable) (past : List Event) {events : List Event}
    {number : Nat} {session later next : Session} {codePoint : UInt16} {handle : Handle}
    {base : Nat} {classOf : UInt16 → UInt8} {answer : Session.Answer}
    (known : (after { tables } past).session? number = some session)
    (unpacked : (after { tables } past).Unpacked number events)
    (arrives : ((after { tables } past).after events).session? number = some later)
    (made : handle.index < later.tailoring.nodes.size)
    (inRange : codePoint.toNat < later.table.size)
    (holds : later.table.get codePoint = (Element.ofHandle handle).pack)
    (packs : later.perform (.pack base classOf) = (.ok answer, next)) :
    ∃ packed, next.tailoring.packed = some packed ∧
      ((Element.unpack (next.table.get codePoint)).PointsTo packed.offsets handle.payload ↔
        (after { tables } past).Attaches number codePoint events ∨
          ∀ payload, ⟨codePoint, (Element.ofHandle handle).pack, payload⟩ ∈
            session.tailoring.memory → payload = handle.payload) ∧
      (¬ (after { tables } past).Attaches number codePoint events → ∀ payload,
        ⟨codePoint, (Element.ofHandle handle).pack, payload⟩ ∈ session.tailoring.memory →
          (Element.unpack (next.table.get codePoint)).PointsTo packed.offsets payload) := by
  have memory := mem_memory_after known unpacked arrives
  have sound : later.tailoring.Sound := by
    refine (reachable_after ?_ arrives).sound
    intro other session there
    refine reachable_after ?_ there
    rintro _ _ ⟨⟩
  have nonempty : later.tailoring.nodes.isEmpty = false := by
    rw [Array.isEmpty_eq_false_iff, ← Array.size_pos_iff]
    exact Nat.lt_of_le_of_lt (Nat.zero_le _) made
  obtain ⟨packed, isPacked, points⟩ := Session.pointsTo_of_perform_pack packs nonempty
  refine ⟨packed, isPacked, ?_⟩
  -- what was remembered for the code point is remembered still, unless it was attached
  have kept : ¬ (after { tables } past).Attaches number codePoint events → ∀ payload,
      ⟨codePoint, (Element.ofHandle handle).pack, payload⟩ ∈ session.tailoring.memory →
        later.table.Refers later.tailoring.memory codePoint payload := by
    intro foreign payload before
    refine Session.refers_of_mem sound inRange ?_
    rw [holds]
    exact (memory _).mpr ⟨before, foreign⟩
  refine ⟨⟨fun own => ?_, fun fresh => ?_⟩, fun foreign payload before => ?_⟩
  · by_cases attached : (after { tables } past).Attaches number codePoint events
    · exact Or.inl attached
    · refine Or.inr fun payload before => ?_
      exact ((points codePoint payload (kept attached payload before) _).mp own).symm
  · by_cases listed : ∃ payload,
        ⟨codePoint, (Element.ofHandle handle).pack, payload⟩ ∈ later.tailoring.memory
    · obtain ⟨payload, mem⟩ := listed
      obtain ⟨before, foreign⟩ := (memory _).mp mem
      have same := fresh.resolve_left foreign payload before
      exact (points codePoint payload (kept foreign payload before) _).mpr same.symm
    · have refers := Session.refers_of_forall_notMem inRange holds (not_exists.mp listed)
      exact (points codePoint _ refers _).mpr rfl
  · exact (points codePoint payload (kept foreign payload before) _).mpr rfl

theorem one_lt_count : 1 < Handle.count := by decide

/-- Make three nodes of two slots each, attach the second one to both code points of a main table,
and pack. -/
def trioEvents : List Event :=
  [.opened 0 (Sizing.withSlots default 2), .perform 0 (.write none (.append 5 (.direct 6))),
    .perform 0 (.write none (.append 5 (.direct 6))),
    .perform 0 (.write none (.append 5 (.direct 6))), .perform 0 (.attach 0 ⟨1, one_lt_count⟩),
    .perform 0 (.attach 1 ⟨1, one_lt_count⟩), .perform 0 (.pack 0 fun _ => 0)]

/-- The tailoring of three nodes on a main table of two code points. -/
def trio : Workspace := after { tables := #[.filled 2 .notFound] } trioEvents

/-- The owner of the main table writes the handle of the first node, which is no word that the
packing wrote there. -/
theorem read_as_handle_iff_assigned :
    let events : List Event := [.assign 0 0 (.ofHandle ⟨0, by decide⟩)]
    ∃ session later next packed, trio.session? 0 = some session ∧ trio.Unpacked 0 events ∧
      (trio.after events).session? 0 = some later ∧
      later.table.get 0 = (Element.ofHandle ⟨0, by decide⟩).pack ∧
      later.perform (.pack 0 fun _ => 0) = (.ok (.count 6), next) ∧
      next.tailoring.packed = some packed ∧
      (Element.unpack (next.table.get 0)).PointsTo packed.offsets 0 := by
  intro events
  obtain ⟨session, known⟩ : ∃ session, trio.session? 0 = some session :=
    Option.isSome_iff_exists.mp (by decide +kernel)
  obtain ⟨later, arrives⟩ : ∃ later, (trio.after events).session? 0 = some later :=
    Option.isSome_iff_exists.mp (by decide +kernel)
  have remembers : (trio.session? 0).map (·.tailoring.memory) =
      some #[⟨0, (Element.reference 2).pack, 1⟩, ⟨1, (Element.reference 2).pack, 1⟩] := by
    decide +kernel
  have stands : ((trio.after events).session? 0).map (fun later =>
      (later.tailoring.nodes.size, later.table.size, later.table.get 0,
        (later.perform (.pack 0 fun _ => 0)).1)) =
      some (3, 2, (Element.ofHandle ⟨0, by decide⟩).pack, .ok (.count 6)) := by decide +kernel
  rw [known, Option.map_some, Option.some.injEq] at remembers
  rw [arrives, Option.map_some, Option.some.injEq] at stands
  simp only [Prod.mk.injEq] at stands
  obtain ⟨count, size, holds, outcome⟩ := stands
  have unpacked : trio.Unpacked 0 events := by
    refine ⟨fun base classOf packs => ?_, trivial⟩
    cases packs
  have packs : later.perform (.pack 0 fun _ => 0) =
      (.ok (.count 6), (later.perform (.pack 0 fun _ => 0)).2) := Prod.ext outcome rfl
  obtain ⟨packed, isPacked, reads, -⟩ := read_as_handle_iff #[.filled 2 .notFound] trioEvents known
    unpacked arrives (by rw [count]; decide) (by rw [size]; decide) holds packs
  refine ⟨session, later, _, packed, known, unpacked, arrives, holds, packs, isPacked, ?_⟩
  refine reads.mpr (Or.inr fun payload listed => ?_)
  have differs : (Element.ofHandle ⟨0, by decide⟩).pack ≠ (Element.reference 2).pack := by decide
  rw [remembers] at listed
  simp [differs] at listed

/-- A copy of the tailoring attaches one code point to the third node, and the owner of the main
table writes the same handle to the other.  By chance that is the word that the packing wrote for
the second node.  The next packing gives the third node the offset 4 and writes the offset of the
second one. -/
theorem shared_handle_misread :
    let events : List Event :=
      [.copied 0, .perform 1 (.attach 0 ⟨2, by decide⟩), .assign 0 1 (.ofHandle ⟨2, by decide⟩)]
    let pack : Session.Request := .pack 0 fun _ => 0
    let again := (trio.after events).undergo (.perform 0 pack)
    (trio.session? 0).map (fun session => session.tailoring.packed.map Packed.length) =
        some (some 6) ∧
      [0, 1].map ((trio.after events).table 0).get =
        [(Element.ofHandle ⟨2, by decide⟩).pack, (Element.ofHandle ⟨2, by decide⟩).pack] ∧
      ((trio.after events).perform 0 pack).map Prod.fst = some (.ok (.count 6)) ∧
      (again.session? 0).map (fun session => session.tailoring.packed.map Packed.offsets) =
        some (some #[0, 2, 4]) ∧
      [0, 1].map (again.table 0).get =
        [(Element.reference 2).pack, (Element.reference 2).pack] := by
  intro events pack again
  exact ⟨by decide +kernel, by decide +kernel, by decide +kernel, by decide +kernel,
    by decide +kernel⟩

end Workspace

end Contractions
