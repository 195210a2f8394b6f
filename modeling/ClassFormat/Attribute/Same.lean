import ClassFormat.Attribute.Basic

namespace ClassFormat

def sameAll {α : Type} (same : α → α → Bool) : List α → List α → Bool
  | [], [] => true
  | a :: as, b :: bs => same a b && sameAll same as bs
  | _, _ => false

namespace Attribute

mutual

def same : Attribute → Attribute → Bool
  | .marker m, .marker m' => m == m'
  | .index role value, .index role' value' => role == role' && value == value'
  | .indices role values, .indices role' values' => role == role' && values == values'
  | .enclosingMethod c m, .enclosingMethod c' m' => c == c' && m == m'
  | .code ⟨maxStack, maxLocals, bytes, handlers, attributes⟩,
    .code ⟨maxStack', maxLocals', bytes', handlers', attributes'⟩ =>
    maxStack == maxStack' && maxLocals == maxLocals' && bytes == bytes' && handlers == handlers' &&
      sameInfos attributes attributes'
  | .stackMapTable frames, .stackMapTable frames' => frames == frames'
  | .innerClasses classes, .innerClasses classes' => classes == classes'
  | .sourceDebugExtension bytes, .sourceDebugExtension bytes' => bytes == bytes'
  | .lineNumberTable lines, .lineNumberTable lines' => lines == lines'
  | .localVariables types table, .localVariables types' table' =>
    types == types' && table == table'
  | .annotations v values, .annotations v' values' =>
    v == v' && sameAll Annotation.same values values'
  | .parameterAnnotations v parameters, .parameterAnnotations v' parameters' =>
    v == v' && sameAll (sameAll Annotation.same) parameters parameters'
  | .typeAnnotations v values, .typeAnnotations v' values' =>
    v == v' && sameAll TypeAnnotation.same values values'
  | .annotationDefault value, .annotationDefault value' => value.same value'
  | .bootstrapMethods methods, .bootstrapMethods methods' => methods == methods'
  | .methodParameters parameters, .methodParameters parameters' => parameters == parameters'
  | .moduleInfo info, .moduleInfo info' => info == info'
  | .record components, .record components' => sameComponents components components'
  | .unknown bytes, .unknown bytes' => bytes == bytes'
  | _, _ => false

def sameInfos : List AttributeInfo → List AttributeInfo → Bool
  | [], [] => true
  | ⟨nameIndex, declared, data⟩ :: infos, ⟨nameIndex', declared', data'⟩ :: infos' =>
    nameIndex == nameIndex' && declared == declared' && data.same data' && sameInfos infos infos'
  | _, _ => false

def sameComponents : List RecordComponent → List RecordComponent → Bool
  | [], [] => true
  | ⟨nameIndex, descriptorIndex, attributes⟩ :: components,
    ⟨nameIndex', descriptorIndex', attributes'⟩ :: components' =>
    nameIndex == nameIndex' && descriptorIndex == descriptorIndex' &&
      sameInfos attributes attributes' && sameComponents components components'
  | _, _ => false

end

end Attribute

end ClassFormat
