/-
  The schema that `on_row` is shown.

  The session keeps one schema, that of the `RowDescription` it has read last. A row belongs to
  the result set of a `Query`, or of the statement that the portal of an `Execute` was bound to.
  `Catalog` follows the names of statements and portals through what a session has forwarded, and
  files each description that it reads under the result set it describes.

  Proved: `schemas_right`. In a run, every row is shown to `on_row` with the columns of its own
  result set (none, if that was not described), provided that clients describe what they execute:
  whenever a row is read, the `Describe` or `Query` that was answered with a description last is
  about the statement of the row's `Execute`, or there was none. The counterexample describes one
  statement and executes another.
-/
import Pgferry.Session.RowBooks
import Pgferry.Session.Rows

namespace Pgferry

open Loop Loop.Flow

variable {σ κ : Type}

/-! ## Result sets and their descriptions -/

/-- What a session has forwarded to the upstream and read from it. -/
inductive Seen where
  | forwarded (o : Origin) (m : FrontendMessage)
  | read (o : Origin) (m : BackendMessage)
  deriving DecidableEq

/-- Statements, portals and descriptions, the newest first. A result set goes by the `Parse` or
    `Query` that it comes from. -/
structure Catalog where
  statements : List (String × Origin) := []
  portals : List (String × Origin) := []
  /-- The result set that a `Query`, a `Describe` or an `Execute` is about. -/
  subjects : List (Origin × Origin) := []
  described : List (Origin × List FieldDescription) := []
  /-- The result set of the message that was answered with a description last, if there was one
      and it is about one. -/
  latest : Option (Option Origin) := none

namespace Catalog

/-- The message `o` is about the result set `r`. -/
def about (c : Catalog) (o : Origin) : Option Origin → Catalog
  | some r => { c with subjects := (o, r) :: c.subjects }
  | none => c

def note (c : Catalog) : Seen → Catalog
  | .forwarded o (.query _) => c.about o (some o)
  | .forwarded o (.parse name _ _) => { c with statements := (name.getD "", o) :: c.statements }
  | .forwarded _ (.bind portal statement) =>
      match c.statements.lookup (statement.getD "") with
      | some r => { c with portals := (portal.getD "", r) :: c.portals }
      | none => c
  | .forwarded o (.describe .statement name) => c.about o (c.statements.lookup (name.getD ""))
  | .forwarded o (.describe .portal name) => c.about o (c.portals.lookup (name.getD ""))
  | .forwarded o (.execute portal) => c.about o (c.portals.lookup (portal.getD ""))
  | .read o (.rowDescription fields) =>
      match c.subjects.lookup o with
      | some r => { c with described := (r, fields) :: c.described, latest := some (some r) }
      | none => { c with latest := some none }
  | _ => c

/-- What is forwarded describes nothing. -/
theorem note_forwarded (c : Catalog) (o : Origin) (m : FrontendMessage) :
    (c.note (.forwarded o m)).latest = c.latest ∧
      (c.note (.forwarded o m)).described = c.described := by
  have habout : ∀ r, (c.about o r).latest = c.latest ∧ (c.about o r).described = c.described := by
    intro r
    cases r <;> exact ⟨rfl, rfl⟩
  cases m with
  | query sql => exact habout _
  | bind portal statement =>
      unfold note
      dsimp only
      split <;> exact ⟨rfl, rfl⟩
  | describe kind name => cases kind <;> exact habout _
  | execute portal => exact habout _
  | _ => exact ⟨rfl, rfl⟩

/-- The columns of the result set that the message `o` is about, as far as it was described. -/
def fields (c : Catalog) (o : Origin) : List FieldDescription :=
  ((c.subjects.lookup o).bind fun r => c.described.lookup r).getD []

/-- The message that was answered with a description last, if there was one, is about the result
    set that the message `o` is about. -/
def Matches (c : Catalog) (o : Origin) : Prop :=
  c.latest = none ∨ c.subjects.lookup o ≠ none ∧ c.latest = some (c.subjects.lookup o)

instance (c : Catalog) (o : Origin) : Decidable (c.Matches o) :=
  inferInstanceAs (Decidable (_ ∨ _ ∧ _))

end Catalog

def catalog (seen : List Seen) : Catalog := seen.foldl Catalog.note {}

/-- The columns of the last description, when those before `x` were `fields`. -/
def Seen.fieldsAfter (fields : List FieldDescription) : Seen → List FieldDescription
  | .read _ (.rowDescription fields) => fields
  | _ => fields

/-- The columns of the description that was read last. -/
def lastFields (seen : List Seen) : List FieldDescription := seen.foldl Seen.fieldsAfter []

/-- `on_row` is asked about the message, if it is asked at all. -/
def BackendMessage.asksRow : BackendMessage → Bool
  | .dataRow row =>
      match DataRowMut.parse row with
      | some (.ok _) => true
      | _ => false
  | _ => false

/-- The entry as something that the session `id` has seen. -/
def Entry.seen (id : Nat) : Entry → Option Seen
  | .forwarded _ seq m => some (.forwarded (.client id seq) m)
  | _ => none

namespace Session

/-- What the session sees in one move. -/
def seen (env : Env σ) (s : Session σ κ) : Move σ → List Seen
  | .own .upstream =>
      if s.ended.isSome then [] else (s.toCore.nextRead.map fun x => .read x.1 x.2).toList
  | .own (.client m t) =>
      ((s.step env (.client m t)).log.drop s.log.length).filterMap (Entry.seen s.id)
  | _ => []

/-- The names of the columns in force. -/
def columns (s : Session σ κ) : List String :=
  (s.hooks.map fun h => h.schema.columns.map ColumnMeta.name).getD []

/-- If the move shows a row to `on_row`, it is with the columns of the row's own result set. -/
def ShowsRight (p : Session σ κ × List Seen) : Move σ → Prop
  | .own .upstream => p.1.ended = none → ∀ x ∈ p.1.toCore.nextRead, x.2.asksRow = true →
      p.1.columns = ((catalog p.2).fields x.1).map FieldDescription.name
  | _ => True

/-- If the move reads a row, the client's last description was one of the statement that the row's
    `Execute` runs, or of its `Query`. -/
def DescribesOwn (p : Session σ κ × List Seen) : Move σ → Prop
  | .own .upstream => p.1.ended = none → ∀ x ∈ p.1.toCore.nextRead, x.2.asksRow = true →
      (catalog p.2).Matches x.1
  | _ => True

instance (p : Session σ κ × List Seen) : ∀ m, Decidable (ShowsRight p m)
  | .own .upstream => inferInstanceAs (Decidable (_ → ∀ x ∈ p.1.toCore.nextRead, _))
  | .own (.client _ _) | .own .clientGone | .own .upstreamClosed | .own (.upstreamError _)
  | .own .cancel | .own .shutdown | .others _ => isTrue trivial

instance (p : Session σ κ × List Seen) : ∀ m, Decidable (DescribesOwn p m)
  | .own .upstream => inferInstanceAs (Decidable (_ → ∀ x ∈ p.1.toCore.nextRead, _))
  | .own (.client _ _) | .own .clientGone | .own .upstreamClosed | .own (.upstreamError _)
  | .own .cancel | .own .shutdown | .others _ => isTrue trivial

/-! ## The schema of a session -/

/-- The interceptor and the schema in force. -/
def schemaOf (s : Session σ κ) : Option (Interceptor κ × RowSchema) :=
  s.hooks.map fun h => (h.interceptor, h.schema)

theorem schemaOf_books (s : Session σ κ) :
    s.schemaOf = s.books.map fun b => (b.interceptor, b.schema) := by
  unfold schemaOf Session.books
  cases s.hooks <;> rfl

/-- A new cycle keeps the schema. -/
theorem schemaOf_clear {s s' : Session σ κ} (h : s'.books = s.books.map RowBooks.clear) :
    s'.schemaOf = s.schemaOf := by
  rw [schemaOf_books, schemaOf_books, h]
  cases s.books <;> rfl

theorem schemaOf_congr {s s' : Session σ κ} (h : s'.books = s.books) :
    s'.schemaOf = s.schemaOf := by
  rw [schemaOf_books, schemaOf_books, h]

variable {s : Session σ κ} {env : Env σ}

/-- The schema after a message of the upstream, for an interceptor that wants rows. -/
def schemaAfter (schema : RowSchema) : BackendMessage → RowSchema
  | .rowDescription fields => RowSchema.fromRowDescription fields
  | _ => schema

theorem onUpstream_schema {i : Interceptor κ} {schema : RowSchema}
    (h : s.schemaOf = some (i, schema)) (hw : i.wantsRows = true) :
    (s.onUpstream env).close.1.schemaOf = some (i, match s.toCore.nextRead with
      | some x => schemaAfter schema x.2
      | none => schema) := by
  obtain ⟨k, hk, hik⟩ := Option.map_eq_some_iff.mp h
  obtain ⟨rfl, rfl⟩ := Prod.mk.inj hik
  cases hr : s.toCore.nextRead with
  | none =>
      rw [onUpstream_idle hr]
      exact h
  | some x =>
      obtain ⟨o, m⟩ := x
      have hafter : (k.books.after m).schema = schemaAfter k.schema m := by
        unfold RowBooks.after schemaAfter
        cases m <;> first
          | rfl
          | exact congrArg RowBooks.schema (if_pos hw)
      have hbooked : ∀ s' : Session σ κ, s'.books = some (k.books.after m) →
          s'.schemaOf = some (k.interceptor, schemaAfter k.schema m) := by
        intro s' h'
        rw [schemaOf_books, h', Option.map_some, hafter, RowBooks.after_interceptor]
        rfl
      refine close_post (Q := fun (s' : Session σ κ) _ =>
        s'.schemaOf = some (k.interceptor, schemaAfter k.schema m)) ?_
      refine Post.mono (onUpstream_books hk hr) (fun s' _ h' => hbooked s' h') ?_
      rintro s' e (h' | ⟨h', -, row, rfl⟩)
      · exact hbooked s' h'
      · rw [schemaOf_books, h']
        rfl

/-! ## Runs -/

theorem lastFields_append (xs ys : List Seen) :
    lastFields (xs ++ ys) = ys.foldl Seen.fieldsAfter (lastFields xs) := by
  rw [lastFields, lastFields, List.foldl_append]

/-- Nothing that is forwarded is a description. -/
theorem fieldsAfter_forwarded (id : Nat) (es : List Entry) (fields : List FieldDescription) :
    (es.filterMap (Entry.seen id)).foldl Seen.fieldsAfter fields = fields := by
  induction es with
  | nil => rfl
  | cons x es ih => cases x <;> exact ih

/-- The description that was read last is filed under its result set. -/
theorem catalog_latest (seen : List Seen) :
    ((catalog seen).latest = none → lastFields seen = [] ∧ (catalog seen).described = []) ∧
      ∀ r, (catalog seen).latest = some (some r) →
        (catalog seen).described.lookup r = some (lastFields seen) := by
  induction seen using List.reverseRecOn with
  | nil => exact ⟨fun _ => ⟨rfl, rfl⟩, (by rintro r ⟨⟩)⟩
  | append_singleton seen x ih =>
      have hcatalog : catalog (seen ++ [x]) = (catalog seen).note x := by
        rw [catalog, List.foldl_append]
        rfl
      rw [hcatalog, lastFields_append]
      -- a description is filed; anything else leaves the files as they are
      cases x with
      | forwarded o m =>
          obtain ⟨hlatest, hdescribed⟩ := (catalog seen).note_forwarded o m
          rw [hlatest, hdescribed]
          exact ih
      | read o m =>
          cases m with
          | rowDescription fields =>
              unfold Catalog.note
              dsimp only
              cases (catalog seen).subjects.lookup o with
              | none => exact ⟨(by rintro ⟨⟩), (by rintro r ⟨⟩)⟩
              | some r =>
                  refine ⟨(by rintro ⟨⟩), ?_⟩
                  rintro r' ⟨⟩
                  exact List.lookup_cons_self
          | _ => exact ih

/-- A description of the row's own result set has its columns. -/
theorem fields_of_matches {seen : List Seen} {o : Origin} (h : (catalog seen).Matches o) :
    lastFields seen = (catalog seen).fields o := by
  obtain ⟨hnone, hsome⟩ := catalog_latest seen
  unfold Catalog.fields
  rcases h with h | ⟨hknown, h⟩
  · obtain ⟨hlast, hdescribed⟩ := hnone h
    rw [hlast, hdescribed]
    cases (catalog seen).subjects.lookup o <;> rfl
  · obtain ⟨r, hr⟩ := Option.ne_none_iff_exists'.mp hknown
    rw [hr] at h ⊢
    rw [Option.bind_some, hsome r h]
    rfl

/-- The schema in force is that of the last description. -/
def Shows (i : Interceptor κ) (p : Session σ κ × List Seen) : Prop :=
  p.1.schemaOf = some (i, RowSchema.fromRowDescription (lastFields p.2))

/-- What a move other than a read leaves. -/
theorem step_schema {e : Event} (he : e ≠ .upstream) : (s.step env e).schemaOf = s.schemaOf := by
  cases hs : s.ended with
  | some r =>
      rw [step_ended (by rw [hs]; exact Option.some_ne_none r)]
  | none =>
      rcases step_books env hs he with h | ⟨-, h⟩
      · cases e with
        | client m t =>
            unfold booksOn booksFor at h
            dsimp only at h
            split at h
            · exact schemaOf_clear h
            · exact schemaOf_congr h
        | _ => exact schemaOf_congr h
      · exact schemaOf_congr h

theorem shows_move {i : Interceptor κ} (hw : i.wantsRows = true) (p : Session σ κ × List Seen)
    (m : Move σ) (h : Shows i p) : Shows i (observe (Session.move env) (Session.seen env) p m) := by
  obtain ⟨s, seen⟩ := p
  have hs : s.schemaOf = some (i, RowSchema.fromRowDescription (lastFields seen)) := h
  show (s.move env m).schemaOf =
    some (i, RowSchema.fromRowDescription (lastFields (seen ++ s.seen env m)))
  rw [lastFields_append]
  cases m with
  | others world => exact hs
  | own e =>
      by_cases he : e = .upstream
      · subst he
        unfold Session.move Session.seen step
        cases hend : s.ended with
        | some r => exact hs
        | none =>
            show (s.onUpstream env).close.1.schemaOf = _
            rw [onUpstream_schema hs hw]
            cases s.toCore.nextRead with
            | none => rfl
            | some x =>
                obtain ⟨o, m⟩ := x
                cases m <;> rfl
      · refine ((step_schema he).trans hs).trans ?_
        cases e with
        | upstream => exact absurd rfl he
        | client m t =>
            have hnone := fieldsAfter_forwarded s.id
              ((s.step env (.client m t)).log.drop s.log.length) (lastFields seen)
            exact congrArg (fun fields => some (i, RowSchema.fromRowDescription fields)) hnone.symm
        | _ => rfl

end Session

section Runs

variable (env : Env σ) (l : Launch σ κ) (ms : List (Move σ)) (i : Interceptor κ) (ctx : κ)

/-- `on_row` is shown the columns of each row's own result set when clients describe what they
    execute. -/
theorem schemas_right (hl : l.hooks = some (SessionHooks.new i ctx)) (hw : i.wantsRows = true)
    (hown : Along (observe (Session.move env) (Session.seen env)) Session.DescribesOwn
      (l.new.start env, []) ms) :
    Along (observe (Session.move env) (Session.seen env)) Session.ShowsRight
      (l.new.start env, []) ms := by
  have hcols : ∀ p : Session σ κ × List Seen, Session.Shows i p →
      p.1.columns = (lastFields p.2).map FieldDescription.name := by
    intro p hp
    obtain ⟨k, hk, hik⟩ := Option.map_eq_some_iff.mp hp
    obtain ⟨_, hschema⟩ := Prod.mk.inj hik
    rw [Session.columns, hk, Option.map_some, Option.getD_some, hschema,
      RowSchema.fromRowDescription, List.map_map]
    rfl
  have hstart : Session.Shows i (l.new.start env, []) := by
    refine (Session.schemaOf_congr (Session.start_ledger env l.new).books).trans ?_
    show l.hooks.map _ = _
    rw [hl]
    rfl
  have hshows : ∀ (p : Session σ κ × List Seen) (m : Move σ), Session.Shows i p →
      Session.DescribesOwn p m → Session.ShowsRight p m := by
    intro p m hp hm
    cases m with
    | others world => trivial
    | own e =>
        cases e with
        | upstream =>
            intro hend x hx hasks
            rw [hcols p hp, Session.fields_of_matches (hm hend x hx hasks)]
        | _ => trivial
  refine hown.of_inv (fun p m hp hm => ⟨?_, Session.shows_move hw p m hp⟩) _ _ hstart
  exact hshows p m hp hm

end Runs

/-! ## A server with two statements -/

namespace Sample

/-- A server with a statement `a` of the one column `id` and a statement `b` of the one column
    `secret`. A portal has the name of its statement. -/
def tableServer : Upstream Unit where
  respond _ m :=
    match m with
    | .parse _ _ _ => ((), [.parseComplete])
    | .bind _ _ => ((), [.bindComplete])
    | .describe _ name => ((), [.rowDescription
        [{ name := if name = some "a" then "id" else "secret", typeId := 25, formatCode := 0 }]])
    | .execute _ => ((), [.dataRow row, .commandComplete "SELECT 1"])
    | .sync => ((), [.readyForQuery .idle])
    | _ => ((), [])
  interrupt _ := ((), [])
  owed _ := 0
  copying _ := false

def tableEnv : Env Unit where
  upstream := tableServer
  route := { name := "main", endpoints := [{ id := "a", upstream := "host-a:5432" }] }
  poolConfig := { mode := .session }

/-- The client prepares both statements, describes one and executes one. -/
def describing (described executed : String) : List (Move Unit) :=
  ([client (.parse (some "a") "A" []), client (.parse (some "b") "B" []),
    client (.describe .statement (some described)),
    client (.bind (some executed) (some executed)), client (.execute (some executed)),
    client .sync] ++ reads 7).map .own

end Sample

/-- The statement that is described is executed. -/
theorem schemas_right_own :
    Along (observe (Session.move Sample.tableEnv) (Session.seen Sample.tableEnv))
      Session.ShowsRight ((Sample.rowLaunch Sample.masking).new.start Sample.tableEnv, [])
      (Sample.describing "a" "a") :=
  schemas_right Sample.tableEnv (Sample.rowLaunch Sample.masking) (Sample.describing "a" "a")
    Sample.masking () rfl rfl (by decide)

/-- The statement `a` is described and `b` is executed: the row of `b` is shown as one of `a`. -/
theorem schemas_wrong :
    ¬ Along (observe (Session.move Sample.tableEnv) (Session.seen Sample.tableEnv))
      Session.ShowsRight ((Sample.rowLaunch Sample.masking).new.start Sample.tableEnv, [])
      (Sample.describing "a" "b") := by
  decide

end Pgferry
