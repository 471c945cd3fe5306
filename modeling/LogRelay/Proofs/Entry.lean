import LogRelay.Proofs.Logger.Steps
import LogRelay.Proofs.Message
import LogRelay.Proofs.Render.Bounded
import LogRelay.Proofs.Render.Replay

/-!
# What sinks are told

The entry made of a message reports the request that the message carries: who logged
it, the values its arguments were promoted to, and the text they render to.  Nothing
that the slot or the consumer's memory held before shows in it.
-/

namespace LogRelay

open LogRelay.Record LogRelay.Render LogRelay.Text

/-- The entry says what was asked to be logged.  Its text is cut off at `limit` bytes.
That text arguments are found again needs them to be among the program's. -/
structure Entry.Reports (texts : StaticTexts) (limit : Nat) (request : Request) (entry : Entry) :
    Prop where
  moduleName_eq : entry.moduleName = request.moduleName
  functionName_eq : entry.functionName = request.functionName
  level_eq : entry.level = request.level
  format_eq : request.format = some entry.format
  captured : ∃ records,
    Feeds ((Format.conversions entry.format).map Format.Spec.kind) request.arguments records ∧
      entry.captured = encodeAll records ∧
      ((∀ argument ∈ request.arguments, argument.IsStatic texts) →
        takeRecords texts entry.captured = records)
  text : (∀ argument ∈ request.arguments, argument.IsStatic texts) →
    IsLongestCut limit (formatNow entry.format request.arguments) entry.text

namespace Message.Carries

variable {arena : Arena} {message : Message} {request : Request}

theorem level_eq (hcarries : message.Carries arena request) :
    message.level arena = request.level := by
  obtain ⟨ticks, records, -, hcontent⟩ := hcarries.content
  have hbyte : (arena.read message.slot).getD 8 0 = request.level.number := by
    rw [hcontent]
    rfl
  rw [Message.level, hbyte, Level.ofNumber?_number, Option.getD_some]

/-- What a message carries is the record of each argument in the class of its conversion. -/
theorem captured_eq (hcarries : message.Carries arena request) :
    ∃ records,
      Feeds ((Format.conversions message.format).map Format.Spec.kind) request.arguments records ∧
        message.captured arena = encodeAll records := by
  obtain ⟨ticks, records, hfeeds, hcontent⟩ := hcarries.content
  refine ⟨records, hfeeds, ?_⟩
  rw [Message.captured, hcontent, List.drop_left' (length_header _ _)]

end Message.Carries

/-- Records replayed for the format they were made for give the text of the arguments. -/
theorem render_encodeAll {texts : StaticTexts} {format : String} {arguments : List Argument}
    {records : List (Format.Kind × Value)}
    (hfeeds : Feeds ((Format.conversions format).map Format.Spec.kind) arguments records)
    (hstatic : ∀ argument ∈ arguments, argument.IsStatic texts) :
    render (Source.records texts) (encodeAll records) format = formatNow format arguments := by
  have hsame : ∀ pair ∈ ((Format.conversions format).map Format.Spec.kind).zip
      ((specsOf (Format.segments format)).map Format.Spec.kind), pair.1 = pair.2 := by
    intro pair hpair
    rw [specsOf_segments, List.zip_map', List.mem_map] at hpair
    obtain ⟨spec, -, rfl⟩ := hpair
    rfl
  rw [formatNow, render, render, renderSegments_encodeAll hfeeds hstatic hsame]

theorem reports_entryOf {β ω : Type} {logger : Logger β ω} {message : Message} {request : Request}
    (hcarries : message.Carries logger.arena request) (memory : Memory) :
    (logger.entryOf memory message).Reports logger.texts logger.config.formatBufferLength
      request := by
  obtain ⟨records, hfeeds, hcaptured⟩ := hcarries.captured_eq
  refine ⟨hcarries.moduleName_eq, hcarries.functionName_eq, hcarries.level_eq, hcarries.format_eq,
    ⟨records, hfeeds, hcaptured, fun hstatic => ?_⟩, fun hstatic => ?_⟩
  · have hread := takeRecords_encodeAll hfeeds hstatic
    rw [← hcaptured] at hread
    exact hread
  · have hcut := (isLongestCut_renderInto (Source.records logger.texts)
      (message.captured logger.arena) logger.config.formatBufferLength memory message.format).1
    rw [hcaptured, render_encodeAll hfeeds hstatic, ← hcaptured] at hcut
    exact hcut

end LogRelay
