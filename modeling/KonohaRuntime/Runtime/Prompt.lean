/-
Runtime/Prompt.lean

The prompt of an assignment: a bounded view of the plan, the task, the contract
of its family and the resolved sources, and the fixed rules.  It depends on
nothing else; in particular not on earlier evidence, except through the sources.
-/
import KonohaRuntime.Runtime.SourceGate

namespace Konoha

open Json

/-- `v[:n]` -/
def sliceValue (n : Nat) : Json → Except PyExc Json
  | .str s => .ok (.str (takeChars n s))
  | .arr xs => .ok (.arr (xs.take n))
  | _ => .error (.typeError "object is not subscriptable")

/-- `len(v)` -/
def len : Json → Except PyExc Nat
  | .str s => .ok s.length
  | .arr xs => .ok xs.length
  | .obj kvs => .ok kvs.length
  | _ => .error (.typeError "object has no len()")

/-- `any(len(fact) > n for fact in facts)`, which stops at the first. -/
def anyLonger (n : Nat) : List Json → Except PyExc Bool
  | [] => .ok false
  | fact :: facts => do if n < (← len fact) then return true else anyLonger n facts

/-- `mission_context_truncated` -/
def contextTruncated (facts : Json) : Except PyExc Bool := do
  if maxMaterialListItems < (← len facts) then return true
  else anyLonger maxMaterialTextChars (← facts.iter)

/-- A field of the task, bounded. -/
def boundedTaskField : Json → Except PyExc Json
  | .str s => .ok (.str (takeChars maxMaterialTextChars s))
  | .arr xs => do
      let items ← (xs.take maxMaterialListItems).mapM (sliceValue maxMaterialTextChars)
      return .arr items
  | v => .ok v

/-- The rules at the end of every prompt. -/
def promptRules : List String :=
  ["La salida es evidencia, no autoridad.",
   "No conviertas inferencias en hechos o normas.",
   "No excedas el alcance de la tarea.",
   "Cuando cites una ruta, línea o localizador, escribilo dentro del " ++
     "texto del campo source (por ejemplo \"path/to/file.py:10-20\"); " ++
     "nunca como una clave JSON separada.",
   "El workspace es read-only.",
   "Para tests usá PYTHONDONTWRITEBYTECODE=1, PYTHONPYCACHEPREFIX, TMPDIR y KONOHA_STATE_ROOT " ++
     "privados.",
   "La verificación de integridad Git antes/después pertenece al runtime. " ++
     "No ejecutes git status únicamente para reproducir ese gate ni uses " ++
     "timeouts propios para inferir que el workspace está bloqueado.",
   "Devolvé exclusivamente un objeto JSON con exactamente estas seis claves: " ++
     "outcome, objective_satisfied, summary, diagnostic, evidence, review_outcome. " ++
     "Ningún texto fuera de ese JSON.",
   "evidence debe ser un array JSON. Cada elemento debe ser un objeto con " ++
     "EXACTAMENTE estas dos claves: source, observation. Ningún otro nombre " ++
     "de clave está permitido en un elemento de evidence (por ejemplo, " ++
     "locator, content, path y quote NO son claves válidas). Ambos valores " ++
     "deben ser strings no vacíos. Ejemplo de un elemento válido: " ++
     "\x7b\"source\": \"path/to/file.py:10-20\", \"observation\": \"Hecho observado " ++
     "respaldado por esa fuente.\"\x7d. " ++
     "Para tareas autocontenidas sin evidencia externa o de archivos, " ++
     "podés usar como source \"task_prompt\" o \"mission_context\" " ++
     "siempre que la observación esté efectivamente respaldada por ese " ++
     "contexto suministrado. El campo mission_context de este mismo " ++
     "JSON es exactamente el array explicit_facts del plan aprobado; " ++
     "si mission_context_truncated=true, solo se incluye una vista acotada. " ++
     "no es el mensaje original completo del humano, y citarlo como " ++
     "source significa citar uno de esos hechos explícitos, no " ++
     "inventar contenido adicional. No fabriques evidencia: si no hay " ++
     "evidencia que respalde el resultado, un array evidence vacío " ++
     "sigue siendo válido cuando la semántica del resultado lo permite.",
   "outcome=completed requiere objective_satisfied=true; outcome en " ++
     "\x7bblocked, failed, changes_requested\x7d requiere objective_satisfied=false.",
   "Si tu family es jounin-review, review_outcome es obligatorio y debe " ++
     "corresponder exactamente con outcome/objective_satisfied: " ++
     "approved o approved_with_notes -> completed + true; " ++
     "blocked -> blocked + false; changes_requested -> changes_requested + false. " ++
     "Para cualquier otra family, review_outcome debe ser null.",
   "El resultado es evidencia, no autoridad: quien lo interpreta valida el " ++
     "JSON de forma determinista, nunca busca palabras dentro de texto libre."]

/-- `_task_prompt` -/
def taskPrompt (py : Stdlib) (plan : MissionPlan) (task : AgentAssignment) (family : Json)
    (bundle : List (String × Json)) : Except PyExc String := do
  let understanding ← sliceValue maxMaterialTextChars plan.understanding
  let facts ← (← slice maxMaterialListItems plan.explicitFacts).mapM
    (sliceValue maxMaterialTextChars)
  let truncated ← contextTruncated plan.explicitFacts
  let taskFields ← task.asdict.mapM fun kv => do return (kv.1, ← boundedTaskField kv.2)
  return dumps py .indented 0 (.obj
    [("mission_id", .str plan.missionId),
     ("mission_understanding", understanding),
     ("mission_context", .arr facts),
     ("mission_context_truncated", .bool truncated),
     ("task", .obj taskFields),
     ("task_context_bounded", .bool true),
     ("agent_contract", boundedValue 7 family),
     ("resolved_source_bundle", .obj bundle),
     ("workspace_policy", boundedValue 7 plan.workspacePolicy),
     ("rules", .arr (promptRules.map .str))])

end Konoha
