/-
  ClipTown.Validation.ServerAgreement — where the four server validators agree.

  TypeScript has the request meta beside the other members of a context where
  the others have it in a member `public`, so that no value with known keys
  passes all four.

    • `serverValidators_agree_iff` — one runtime accepts a value exactly when the
      others do iff none that knows the keys of the value admits it.
-/
import ClipTown.Validation.ServerAdmits

namespace ClipTown.ServerModels

open JsonData PublicModels Runtimes.TypeScript

/-! ## §1. No value passes all four. -/

theorem KeysDeclared.mem {declared : List String} {fields : List (String × JsonValue)}
    {key : String} {inner : JsonValue} (h : KeysDeclared declared (.obj fields))
    (hget : fields.lookup key = some inner) : key ∈ declared := by
  obtain ⟨before, after, hfields, -⟩ := List.lookup_eq_some_iff.mp hget
  apply h.2
  rw [hfields]
  simp

/-- What an object schema takes is an object whose members are as the shape asks. -/
theorem typescript_members (shape : List (String × ZodType))
    {v : Option JsonValue} (h : ZodType.object shape v = true) :
    ∃ object : JsonObject, v = some (.obj object.fields)
      ∧ ∀ field ∈ shape, field.2 (object.get field.1) = true := by
  rcases v with _ | (_ | _ | _ | _ | _ | fields)
  case some.obj =>
    obtain ⟨object, hobject, hstrict⟩ := (Option.any_eq_true _ _).mp h
    simp only [strictObject, Bool.and_eq_true, List.all_eq_true] at hstrict
    refine ⟨object, ?_, hstrict.2⟩
    by_cases hnodup : (fields.map Prod.fst).Nodup
    · rw [object?_obj hnodup] at hobject
      rw [← Option.some.inj hobject]
    · simp [JsonValue.object?, hnodup] at hobject
  all_goals simp [ZodType.object, JsonValue.object?] at h

section

variable {lib : Libraries}

/-- The context TypeScript takes has the id of the request beside the actor, where the
others know no such key. -/
theorem not_typescript_context {runtime : Runtime} (hother : runtime ≠ .typescript)
    {v : JsonValue} (hknows : KnowsContext runtime v) :
    ZodType.object
      (TypeScript.serverRequestContextShape lib.zodIpv4 lib.zodIpv6) (some v) = false := by
  rw [Bool.eq_false_iff]
  intro haccepts
  obtain ⟨object, hobject, hmembers⟩ := typescript_members _ haccepts
  cases hobject
  have hid := hmembers ("requestId", PublicModels.TypeScript.token) (by
    simp [TypeScript.serverRequestContextShape, PublicModels.TypeScript.requestMetaShape])
  cases hget : object.get "requestId" with
  | none =>
      rw [hget] at hid
      exact Bool.noConfusion hid
  | some id =>
      have hkey := KeysDeclared.mem hknows.1 hget
      cases runtime with
      | typescript => exact hother rfl
      | _ => exact absurd hkey (by decide)

/-- The context Gleam takes has the request meta in a member that TypeScript does not
know. -/
theorem not_gleam_context {v : JsonValue} (hknows : KnowsContext .typescript v) :
    ¬ AdmitsContext lib .gleam (some v) := by
  intro ⟨get, hmembers, hmeta, _⟩
  rw [if_neg (by decide)] at hmeta
  obtain ⟨inner, hinner, _⟩ := hmeta
  cases v with
  | obj fields =>
      cases hmembers
      change members .gleam metaKeys (fields.lookup "public") = some inner at hinner
      cases hpublic : fields.lookup "public" with
      | none =>
          rw [hpublic] at hinner
          exact absurd hinner (by simp [members])
      | some value => exact absurd (KeysDeclared.mem hknows.1 hpublic) (by decide)
  | _ => simp [members] at hmembers

theorem gleam_refuses {model : ServerModel} {v : JsonValue} (hknows : Knows .typescript model v) :
    accepts lib .gleam model v = false := by
  rw [Bool.eq_false_iff]
  intro haccepts
  have hadmits := (gleam_accepts lib).mp haccepts
  cases model with
  | serverRequestContext => exact not_gleam_context hknows hadmits
  | internalCommand =>
      obtain ⟨get, hmembers, _, _, hcontext, _⟩ := hadmits
      cases v with
      | obj fields =>
          cases hmembers
          change AdmitsContext lib .gleam (fields.lookup "context") at hcontext
          cases hinner : fields.lookup "context" with
          | none =>
              rw [hinner] at hcontext
              exact absurd hcontext (by simp [AdmitsContext, members])
          | some inner =>
              rw [hinner] at hcontext
              exact not_gleam_context (hknows.2 _ rfl inner hinner) hcontext
      | _ => simp [members] at hmembers

theorem typescript_refuses {runtime : Runtime} (hother : runtime ≠ .typescript)
    {model : ServerModel} {v : JsonValue} (hknows : Knows runtime model v) :
    accepts lib .typescript model v = false := by
  cases model with
  | serverRequestContext => exact not_typescript_context hother hknows
  | internalCommand =>
      rw [Bool.eq_false_iff]
      intro haccepts
      obtain ⟨object, hobject, hmembers⟩ := typescript_members (v := some v)
        (TypeScript.internalCommandShape lib.zodIpv4 lib.zodIpv6 lib.zodMissing) haccepts
      cases hobject
      -- the context is the third member of the shape
      have hcontext : ZodType.object
          (TypeScript.serverRequestContextShape lib.zodIpv4 lib.zodIpv6)
          (object.get "context") = true :=
        hmembers (_, _) (.tail _ (.tail _ (.head _)))
      cases hinner : object.get "context" with
      | none =>
          rw [hinner] at hcontext
          exact Bool.noConfusion hcontext
      | some inner =>
          rw [hinner, not_typescript_context hother (hknows.2 _ rfl inner hinner)] at hcontext
          exact Bool.noConfusion hcontext

/-- A value that a runtime knows the keys of is refused by another. -/
theorem exists_refuses {runtime : Runtime} {model : ServerModel} {v : JsonValue}
    (hknows : Knows runtime model v) :
    ∃ other ≠ runtime, accepts lib other model v = false := by
  by_cases hruntime : runtime = .typescript
  · subst hruntime
    exact ⟨.gleam, by decide, gleam_refuses hknows⟩
  · exact ⟨.typescript, fun h => hruntime h.symm, typescript_refuses hruntime hknows⟩

end

/-! ## §2. Agreement. -/

/-- Over a value whose keys it knows, a runtime accepts exactly when the other three do. -/
def Consistent (lib : Libraries) (model : ServerModel) (v : JsonValue) : Prop :=
  ∀ runtime, Knows runtime model v →
    (accepts lib runtime model v = true
      ↔ ∀ other ≠ runtime, accepts lib other model v = true)

/-- **The four server validators are consistent over a value exactly when none that
knows its keys admits it.** -/
theorem serverValidators_agree_iff (lib : Libraries) (model : ServerModel) (v : JsonValue) :
    Consistent lib model v
      ↔ ∀ runtime, Knows runtime model v → ¬ Admits lib runtime model v := by
  refine forall₂_congr fun runtime hknows => ?_
  rw [← accepts_iff lib hknows]
  -- under `Knows` the others never all accept, so neither may this one
  have hsplit : ¬ ∀ other ≠ runtime, accepts lib other model v = true := by
    intro hall
    obtain ⟨other, hother, hrefuses⟩ := exists_refuses hknows
    rw [hall other hother] at hrefuses
    exact Bool.noConfusion hrefuses
  exact iff_false_right hsplit

/-- `{"public": {"requestId": "req-1", "traceId": "trace-1"},
"actor": {"userId": "user-1", "roles": []}}`. -/
def nestedContext : JsonValue :=
  .obj [("public", .obj [("requestId", .str "req-1"), ("traceId", .str "trace-1")]),
    ("actor", .obj [("userId", .str "user-1"), ("roles", .arr [])])]

/-- A command as Rust, Go and Gleam read it. -/
def nestedCommand : JsonValue :=
  .obj [("operationId", .str "clips.create"), ("context", nestedContext), ("payload", .obj [])]

/-- Rust knows the keys of the command and accepts it; TypeScript refuses it. -/
theorem nestedCommand_splits : ¬ ∃ lib, Consistent lib .internalCommand nestedCommand := by
  intro hexists
  obtain ⟨lib, hconsistent⟩ := hexists
  have hcontext : KnowsContext .rust nestedContext := by
    refine ⟨⟨by decide, by decide⟩, fun get hget => ?_⟩
    cases hget
    refine ⟨fun inner hinner => ?_, fun inner hinner => ?_⟩
    · cases hinner
      exact ⟨by decide, by decide⟩
    · cases hinner
      exact ⟨by decide, by decide⟩
  have hknows : Knows .rust .internalCommand nestedCommand := by
    refine ⟨⟨by decide, by decide⟩, fun get hget inner hinner => ?_⟩
    cases hget
    cases hinner
    exact hcontext
  have hrust : accepts lib .rust .internalCommand nestedCommand = true := by
    show Rust.accepts lib.gardeIp .internalCommand nestedCommand = true
    rfl
  have htypescript : accepts lib .typescript .internalCommand nestedCommand = false := by
    show TypeScript.accepts lib.zodIpv4 lib.zodIpv6 lib.zodMissing .internalCommand nestedCommand
      = false
    rfl
  rw [(hconsistent .rust hknows).mp hrust .typescript (by decide)] at htypescript
  exact Bool.noConfusion htypescript

end ClipTown.ServerModels
