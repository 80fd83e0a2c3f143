import BracketCall.Proofs.EndlessRuns
import BracketCall.Proofs.Precedence
import BracketCall.Proofs.Utf8Texts

/-!
# How a command ends

A command should end with an exit code, and with a report on the error channel if the code is not
zero.  Faults of a program and failures of natives are reported, and so are a missing file and an
assignment without a name.  Three things are not: a source that is no text or no file at all, a path
with a name that is too long, and an assignment that is no text.  And a run that waits for infinitely
many milliseconds does not end.

**Method.**  Without a settings file a request has three stages: assignments, source, and the work on
the text of the source (`perform_eq`).  Each stage ends the command or passes on a result, so how the
command ends is told by the first stage that does not pass.  The last stage never ends exactly if the
evaluation of the source comes to such a wait.

**Results.**
* `readSource_cases`: what becomes of the source, by what the path leads to.
* `finish_settled_or_stuck`: the work on a text ends with an exit code, unless a run is stuck.
* `perform_ends`: which requests end with an exit code, which errors escape, and which never end.
-/

namespace BracketCall

namespace CommandLine

/-! ## Parts of a request -/

namespace Request

/-- The settings file that a request names. -/
def config? : Request → Option String
  | run _ config _ _ => config
  | tokens _ _ => none
  | tree _ => none

def assignments : Request → List (Option String)
  | run _ _ assignments _ => assignments
  | tokens _ _ => []
  | tree _ => []

/-- The file of the source. -/
def file : Request → String
  | run file _ _ _ => file
  | tokens file _ => file
  | tree file => file

/-- The work on the text of the source. -/
def finish (settings : Settings) (source : String) : Request → Outcome
  | run _ _ _ verbose => runSource settings verbose source
  | tokens _ raw =>
      match tokenize (!raw) source with
      | .error f => failed f.diagnostic.format
      | .ok ts => { ending := .code 0, out := String.join (ts.map fun t => t.display ++ "\n") }
  | tree _ =>
      match parseSource true source with
      | .error f => failed f.diagnostic.format
      | .ok program => { ending := .code 0, out := program.outline ++ "\n" }

/-- The stages of a request without a settings file. -/
theorem perform_eq (yaml : DocumentReader) (look : Path → Except LookupError Entry) {r : Request}
    (hconfig : r.config? = none) :
    r.perform yaml look =
      match r.assignments.foldlM assign {} with
      | .error outcome => outcome
      | .ok settings =>
          match readSource look r.file with
          | .error outcome => outcome
          | .ok source => r.finish settings source := by
  cases r with
  | run file config assignments verbose =>
      obtain rfl : config = none := hconfig
      rfl
  | tokens file raw => rfl
  | tree file => rfl

end Request

/-! ## Exit codes and escapes -/

/-- What is written when a command reports an error: perhaps some steps of a run, and then the error,
with a diagnostic if it is a fault. -/
inductive Reported : String → Prop
  | trouble (steps text : String) : Reported (steps ++ ("Error: " ++ text ++ "\n"))
  | fault (steps : String) (f : Fault) : Reported (steps ++ (f.diagnostic.format ++ "\n"))

/-- A command ended with exit code zero, or with one and a report. -/
inductive Settled (o : Outcome) : Prop
  | done : o.ending = .code 0 → Settled o
  | reported : o.ending = .code 1 → Reported o.err → Settled o

theorem Settled.ending_eq_code {o : Outcome} (h : Settled o) : ∃ n, o.ending = .code n := by
  cases h with
  | done hending => exact ⟨0, hending⟩
  | reported hending _ => exact ⟨1, hending⟩

theorem Settled.ending_ne_escape {o : Outcome} (h : Settled o) (e : Escape) :
    o.ending ≠ .escape e := by
  obtain ⟨n, hn⟩ := h.ending_eq_code
  rw [hn]
  exact nofun

theorem Settled.ending_ne_never {o : Outcome} (h : Settled o) : o.ending ≠ .never := by
  obtain ⟨n, hn⟩ := h.ending_eq_code
  rw [hn]
  exact nofun

/-- The text of a source cannot be had: the bytes that the path leads to are no text, or there are
none. -/
inductive Unreadable (look : Path → Except LookupError Entry) (file : String) : ReadError → Prop
  | nameTooLong :
      look (.ofString file) = .error .nameTooLong →
      Unreadable look file (.nameTooLong (.ofString file))
  | directory :
      look (.ofString file) = .ok .directory →
      Unreadable look file (.directory (.ofString file))
  | encoding {bytes : List UInt8} {e : Utf8.Error} :
      look (.ofString file) = .ok (.file bytes) →
      (∀ cs, bytes ≠ Utf8.encode cs) →
      Utf8.decode bytes = .error e →
      Unreadable look file (.encoding e)

/-- An assignment that is a text with a name. -/
def Accepted (assignment : Option String) : Prop :=
  ∃ text entry, assignment = some text ∧ Assignment.parse text = .ok entry

/-- The errors that escape from a request: the first assignment that is not accepted is no text, or
all are accepted and the source is unreadable. -/
inductive Escapes (look : Path → Except LookupError Entry) (r : Request) : Escape → Prop
  | assignment {before after : List (Option String)} :
      r.assignments = before ++ none :: after →
      (∀ a ∈ before, Accepted a) →
      Escapes look r .assignment
  | reading {e : ReadError} :
      (∀ a ∈ r.assignments, Accepted a) →
      Unreadable look r.file e →
      Escapes look r (.reading e)

/-- The requests that never end: the assignments of a run are accepted, its source is read, and the
evaluation of the source comes to a wait for infinitely many milliseconds. -/
inductive Stalls (look : Path → Except LookupError Entry) : Request → Prop
  | run {file : String} {config : Option String} {options : List (Option String)} {verbose : Bool}
      {settings : Settings} {source : String} {call : Invocation Standard} :
      options.foldlM assign {} = .ok settings →
      readSource look file = .ok source →
      call ∈ (evaluation settings source).2.trace →
      Standard.IsStuck call →
      Stalls look (.run file config options verbose)

/-! ## Assignments -/

theorem foldlM_assign_accepted {row : List (Option String)} (h : ∀ a ∈ row, Accepted a)
    (s : Settings) : ∃ s', row.foldlM assign s = .ok s' := by
  induction row generalizing s with
  | nil => exact ⟨s, rfl⟩
  | cons a row ih =>
      obtain ⟨text, entry, rfl, hparse⟩ := h a List.mem_cons_self
      rw [List.foldlM_cons, assign_of_parse hparse]
      exact ih (fun a ha => h a (List.mem_cons_of_mem _ ha)) _

/-- The first assignment that is not accepted decides how the command ends. -/
theorem foldlM_assign_stopped {before after : List (Option String)} {a : Option String}
    {o : Outcome} (hbefore : ∀ b ∈ before, Accepted b) (ha : ∀ s, assign s a = .error o)
    (s : Settings) : (before ++ a :: after).foldlM assign s = .error o := by
  obtain ⟨s', hs'⟩ := foldlM_assign_accepted hbefore s
  rw [List.foldlM_append, hs']
  change ((a :: after).foldlM assign s') = _
  rw [List.foldlM_cons, ha]
  rfl

theorem exists_first_not_accepted {row : List (Option String)} (h : ¬ ∀ a ∈ row, Accepted a) :
    ∃ before a after, row = before ++ a :: after ∧ (∀ b ∈ before, Accepted b) ∧ ¬ Accepted a := by
  induction row with
  | nil => exact absurd nofun h
  | cons a row ih =>
      by_cases ha : Accepted a
      · have hrow : ¬ ∀ b ∈ row, Accepted b := fun hall => h (List.forall_mem_cons.mpr ⟨ha, hall⟩)
        obtain ⟨before, b, after, hsplit, hbefore, hb⟩ := ih hrow
        exact ⟨a :: before, b, after, by rw [hsplit]; rfl,
          List.forall_mem_cons.mpr ⟨ha, hbefore⟩, hb⟩
      · exact ⟨[], a, row, rfl, nofun, ha⟩

/-- All assignments are accepted, or the first one that is not ends the command. -/
theorem foldlM_assign_cases (row : List (Option String)) (s : Settings) :
    ((∀ a ∈ row, Accepted a) ∧ ∃ s', row.foldlM assign s = .ok s') ∨
    (∃ before after, row = before ++ none :: after ∧ (∀ b ∈ before, Accepted b)) ∨
    ∃ e : HostError, row.foldlM assign s = .error (failed ("Error: " ++ e.message)) := by
  by_cases hall : ∀ a ∈ row, Accepted a
  · exact .inl ⟨hall, foldlM_assign_accepted hall s⟩
  · obtain ⟨before, a, after, rfl, hbefore, ha⟩ := exists_first_not_accepted hall
    cases a with
    | none => exact .inr (.inl ⟨before, after, rfl, hbefore⟩)
    | some text =>
        cases hparse : Assignment.parse text with
        | ok entry => exact absurd ⟨text, entry, rfl, hparse⟩ ha
        | error e =>
            refine .inr (.inr ⟨e, foldlM_assign_stopped hbefore ?_ s⟩)
            intro s'
            rw [assign, hparse]

/-! ## The source -/

theorem readSource_unreadable {look : Path → Except LookupError Entry} {file : String}
    {e : ReadError} (h : Unreadable look file e) :
    readSource look file = .error { ending := .escape (.reading e) } := by
  cases h with
  | nameTooLong hlook => simp only [readSource, hlook]
  | directory hlook => simp only [readSource, hlook, Entry.text]
  | encoding hlook _ hdecode => simp only [readSource, hlook, Entry.text, hdecode]

/-- A source is read if its bytes are a text, and reported if there is none. -/
theorem readSource_cases (look : Path → Except LookupError Entry) (file : String) :
    (∃ source, readSource look file = .ok source) ∨
    (∃ e, Unreadable look file e) ∨
    ∃ text, readSource look file = .error (failed ("Error: " ++ text)) := by
  cases hlook : look (.ofString file) with
  | error e =>
      cases e with
      | missing =>
          refine .inr (.inr ⟨"File not found: " ++ (Path.ofString file).text, ?_⟩)
          simp only [readSource, hlook]
          rfl
      | nameTooLong => exact .inr (.inl ⟨_, .nameTooLong hlook⟩)
  | ok entry =>
      cases entry with
      | directory => exact .inr (.inl ⟨_, .directory hlook⟩)
      | file bytes =>
          cases hdecode : Utf8.decode bytes with
          | ok cs =>
              refine .inl ⟨String.ofList cs, ?_⟩
              simp only [readSource, hlook, Entry.text, hdecode]
          | error e =>
              refine .inr (.inl ⟨_, .encoding hlook ?_ hdecode⟩)
              intro cs hbytes
              rw [Utf8.decode_eq_ok_iff.mpr ⟨cs, hbytes, rfl⟩] at hdecode
              cases hdecode

/-! ## The work on a text -/

theorem settled_failed_trouble (text : String) : Settled (failed ("Error: " ++ text)) := by
  refine .reported rfl ?_
  have hreport := Reported.trouble "" text
  rwa [String.empty_append] at hreport

theorem settled_failed_fault (f : Fault) : Settled (failed f.diagnostic.format) := by
  refine .reported rfl ?_
  have hreport := Reported.fault "" f
  rwa [String.empty_append] at hreport

theorem evaluation_endless_iff (s : Settings) (source : String) :
    (evaluation s source).1 = .error .endless ↔
      ∃ call ∈ (evaluation s source).2.trace, Standard.IsStuck call :=
  Machine.evaluate_endless_iff (fun _ _ _ => rfl) Standard.natives_endless_iff s.literals source _

/-- A run ends with an exit code, or its evaluation does not end. -/
theorem runSource_settled_or_stuck (s : Settings) (verbose : Bool) (source : String) :
    Settled (runSource s verbose source) ∨ (evaluation s source).1 = .error .endless := by
  have hshows := runSource_shows s verbose source
  cases hresult : (evaluation s source).1 with
  | ok _ => exact .inl (.done (hshows.done hresult))
  | error e =>
      cases e with
      | fault f =>
          obtain ⟨hending, steps, herr⟩ := hshows.fault f hresult
          exact .inl (.reported hending (herr ▸ .fault steps f))
      | host e =>
          obtain ⟨hending, steps, herr⟩ := hshows.raise e hresult
          exact .inl (.reported hending (herr ▸ .trouble steps e.message))
      | endless => exact .inr rfl

theorem runSource_ne_escape (s : Settings) (verbose : Bool) (source : String) (e : Escape) :
    (runSource s verbose source).ending ≠ .escape e := by
  rcases runSource_settled_or_stuck s verbose source with hsettled | hendless
  · exact hsettled.ending_ne_escape e
  · rw [(runSource_shows s verbose source).endless hendless]
    exact nofun

/-- The work on a text ends with an exit code, unless it is a run that is stuck. -/
theorem Request.finish_settled_or_stuck (s : Settings) (source : String) (r : Request) :
    Settled (r.finish s source) ∨
      ∃ file config options verbose, r = .run file config options verbose ∧
        ∃ call ∈ (evaluation s source).2.trace, Standard.IsStuck call := by
  cases r with
  | run file config options verbose =>
      refine (runSource_settled_or_stuck s verbose source).imp_right fun hendless => ?_
      exact ⟨file, config, options, verbose, rfl, (evaluation_endless_iff s source).mp hendless⟩
  | tokens file raw =>
      rw [finish]
      split
      · exact .inl (settled_failed_fault _)
      · exact .inl (.done rfl)
  | tree file =>
      rw [finish]
      split
      · exact .inl (settled_failed_fault _)
      · exact .inl (.done rfl)

/-! ## How a request ends -/

variable {yaml : DocumentReader} {look : Path → Except LookupError Entry} {r : Request}

/-- What escapes by the rules does escape. -/
theorem ending_of_escapes (hconfig : r.config? = none) {e : Escape} (h : Escapes look r e) :
    (r.perform yaml look).ending = .escape e := by
  rw [r.perform_eq yaml look hconfig]
  cases h with
  | assignment hrow hbefore =>
      rw [hrow, foldlM_assign_stopped hbefore fun _ => rfl]
  | reading hall hsource =>
      obtain ⟨s, hs⟩ := foldlM_assign_accepted hall {}
      rw [hs, readSource_unreadable hsource]

/-- What stalls by the rules does not end. -/
theorem ending_of_stalls (hconfig : r.config? = none) (h : Stalls look r) :
    (r.perform yaml look).ending = .never := by
  rw [r.perform_eq yaml look hconfig]
  cases h with
  | @run file config options verbose settings source call hsettings hsource hcall hstuck =>
      have hendless := (evaluation_endless_iff settings source).mpr ⟨call, hcall, hstuck⟩
      simp only [Request.assignments, Request.file, hsettings, hsource]
      exact (runSource_shows settings verbose source).endless hendless

/-- What neither escapes nor stalls ends with an exit code. -/
theorem settled_or_escapes_or_stalls (hconfig : r.config? = none) :
    Settled (r.perform yaml look) ∨ (∃ e, Escapes look r e) ∨ Stalls look r := by
  rw [r.perform_eq yaml look hconfig]
  rcases foldlM_assign_cases r.assignments {} with ⟨hall, s, hs⟩ | ⟨_, _, hrow, hbefore⟩ | ⟨e, he⟩
  · rcases readSource_cases look r.file with ⟨source, hsource⟩ | ⟨e, he⟩ | ⟨text, htext⟩
    · rcases r.finish_settled_or_stuck s source with
        hsettled | ⟨file, config, options, verbose, rfl, call, hcall, hstuck⟩
      · rw [hs, hsource]
        exact .inl hsettled
      · exact .inr (.inr (.run hs hsource hcall hstuck))
    · exact .inr (.inl ⟨_, .reading hall he⟩)
    · rw [hs, htext]
      exact .inl (settled_failed_trouble text)
  · exact .inr (.inl ⟨_, .assignment hrow hbefore⟩)
  · rw [he]
    exact .inl (settled_failed_trouble e.message)

/-- **How a request without a settings file ends**, whatever the paths lead to.

The errors that escape are those of `Escapes`, and the requests that never end are those of `Stalls`.
All other requests, and only these, end with exit code zero, or with exit code one and a report. -/
theorem perform_ends (yaml : DocumentReader) (look : Path → Except LookupError Entry) {r : Request}
    (hconfig : r.config? = none) :
    (∀ e, (r.perform yaml look).ending = .escape e ↔ Escapes look r e) ∧
    ((r.perform yaml look).ending = .never ↔ Stalls look r) ∧
    (Settled (r.perform yaml look) ↔ (∀ e, ¬ Escapes look r e) ∧ ¬ Stalls look r) := by
  have hcases : Settled (r.perform yaml look) ∨ _ := settled_or_escapes_or_stalls hconfig
  -- No two of these can hold together, since each of them tells how the request ends.
  rcases hcases with hsettled | ⟨e, he⟩ | hstalls
  · have hnone (e : Escape) : ¬ Escapes look r e := fun he =>
      hsettled.ending_ne_escape e (ending_of_escapes hconfig he)
    have hends : ¬ Stalls look r := fun h => hsettled.ending_ne_never (ending_of_stalls hconfig h)
    exact ⟨fun e => iff_of_false (hsettled.ending_ne_escape e) (hnone e),
      iff_of_false hsettled.ending_ne_never hends, iff_of_true hsettled ⟨hnone, hends⟩⟩
  · have hending : (r.perform yaml look).ending = .escape e := ending_of_escapes hconfig he
    have hends : ¬ Stalls look r := fun h =>
      nomatch hending.symm.trans (ending_of_stalls hconfig h)
    refine ⟨fun e' => ⟨?_, ending_of_escapes hconfig⟩, iff_of_false (by simp [hending]) hends,
      iff_of_false (fun h => h.ending_ne_escape e hending) fun h => h.1 e he⟩
    intro hending'
    cases hending.symm.trans hending'
    exact he
  · have hending : (r.perform yaml look).ending = .never := ending_of_stalls hconfig hstalls
    have hnone (e : Escape) : ¬ Escapes look r e := fun he =>
      nomatch hending.symm.trans (ending_of_escapes hconfig he)
    exact ⟨fun e => iff_of_false (by simp [hending]) (hnone e), iff_of_true hending hstalls,
      iff_of_false (fun h => h.ending_ne_never hending) fun h => h.2 hstalls⟩

/-- A run of a file with an opening bracket ends with an exit code, a run of a file whose bytes are no
text lets an error escape, and a run that waits for infinitely many milliseconds does not end. -/
theorem perform_ends_bytes :
    let r := Request.run "a" none [some "x=true"] false
    let yaml : DocumentReader := fun _ => .error .malformed
    let waiting := "[[대기|Infinity]]"
    r.config? = none ∧
    Settled (r.perform yaml fun _ => .ok (.file [0x5B])) ∧
    (r.perform yaml fun _ => .ok (.file [0x5B, 0xFF])).ending =
      .escape (.reading (.encoding ⟨.invalidStart, 0xFF, 1, 1⟩)) ∧
    (r.perform yaml fun _ => .ok (.file waiting.toUTF8.data.toList)).ending = .never := by
  intro r yaml waiting
  have hconfig : r.config? = none := rfl
  have haccepted : ∀ a ∈ r.assignments, Accepted a := by
    intro a ha
    rw [List.mem_singleton.mp ha]
    exact ⟨"x=true", ("x", .bool true), rfl, rfl⟩
  have hsettings : r.assignments.foldlM assign {} = .ok { assigned := [("x", .bool true)] } := rfl
  refine ⟨hconfig, ?_, ?_, ?_⟩
  · refine (perform_ends yaml _ hconfig).2.2.mpr ⟨?_, ?_⟩
    · rintro e (⟨hrow, -⟩ | ⟨-, hlook | hlook | ⟨hlook, hbytes, -⟩⟩)
      · have hnone : none ∈ r.assignments := by
          rw [hrow]
          exact List.mem_append_right _ List.mem_cons_self
        obtain ⟨_, _, htext, -⟩ := haccepted none hnone
        cases htext
      · cases hlook
      · cases hlook
      · cases hlook
        exact hbytes ['['] rfl
    · intro hstalls
      change Stalls _ (.run "a" none [some "x=true"] false) at hstalls
      obtain ⟨hsettings', hsource', hcall, -⟩ := hstalls
      have hsource : readSource (fun _ => .ok (.file [0x5B])) "a" = .ok "[" := rfl
      have hparse : parseSource true "[" = .error (.unexpectedEnd .opening 1) := by
        decide +kernel
      cases hsettings.symm.trans hsettings'
      cases hsource.symm.trans hsource'
      rw [evaluation, Machine.evaluate_error hparse] at hcall
      cases hcall
  · refine ((perform_ends yaml _ hconfig).1 _).mpr (.reading haccepted (.encoding rfl ?_ rfl))
    intro cs hbytes
    have hdecode : Utf8.decodeFrom 0 0 none [0x5B, 0xFF] = .ok cs :=
      Utf8.decodeFrom_eq_ok_iff.mpr hbytes
    cases hdecode
  · have hsource : readSource (fun _ => .ok (.file waiting.toUTF8.data.toList)) "a" = .ok waiting := rfl
    have hparse : parseSource true waiting = .ok (.program [.call "대기" [.literal "Infinity"]]) := by
      change parseSource true "[[대기|Infinity]]" = _
      decide +kernel
    have hnumber : Numeral.read? "Infinity" = some (.float (.infinite false)) := by decide +kernel
    let settings : Settings := { assigned := [("x", .bool true)] }
    have hwait : (runTable settings).function? "대기" = some .wait := function?_runTable settings .wait
    let call : Invocation Standard := ⟨"대기", .wait, [⟨.number, .float (.infinite false)⟩]⟩
    have htrace : (evaluation settings waiting).2.trace = [call] := by
      simp only [evaluation, Machine.evaluate, settings, hparse, Machine.interpret,
        Machine.statements, Machine.call, hwait, Machine.arguments, Machine.argument,
        Dynamic.coerce_text_of_read? hnumber]
      rfl
    have hcall : call ∈ (evaluation settings waiting).2.trace := by
      rw [htrace]
      exact List.mem_cons_self
    exact (perform_ends yaml _ hconfig).2.1.mpr (.run hsettings hsource hcall ⟨rfl, rfl⟩)

/-- A request to list the tokens of a directory does not end with an exit code. -/
theorem tokens_directory_escapes :
    let files : Files := { entries := [(["d"], .directory)] }
    let yaml : DocumentReader := fun _ => .error .malformed
    let r := Request.tokens "d" false
    request ["tokens", "d"] = .ok r ∧ r.config? = none ∧
    (r.perform yaml files.find).ending = .escape (.reading (.directory (.ofString "d"))) ∧
    (r.perform yaml files.find).err = "" ∧
    ¬ ∀ (yaml : DocumentReader) (look : Path → Except LookupError Entry) (r : Request),
      r.config? = none → Settled (r.perform yaml look) := by
  intro files yaml r
  have hfind : files.find (.ofString "d") = .ok .directory := rfl
  have hending : (r.perform yaml files.find).ending =
      .escape (.reading (.directory (.ofString "d"))) :=
    ending_of_escapes rfl (.reading (List.forall_mem_nil _) (.directory hfind))
  refine ⟨rfl, rfl, hending, ?_, ?_⟩
  · have hsource := readSource_unreadable (.directory hfind)
    simp only [r, Request.perform, hsource]
  · intro hall
    exact (hall yaml files.find r rfl).ending_ne_escape _ hending

end CommandLine
end BracketCall
