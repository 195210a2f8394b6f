import ClassFormat.Attribute.Annotation
import ClassFormat.Attribute.Table
import ClassFormat.Attribute.TypeAnnotation
import ClassFormat.StackMap.Layout

namespace ClassFormat

/-- Whether annotations are kept at run time. -/
inductive Visibility where
  | visible
  | invisible
  deriving DecidableEq, Repr

inductive Marker where
  | synthetic
  | deprecated
  deriving DecidableEq, Repr

inductive IndexRole where
  | constantValue
  | signature
  | sourceFile
  | moduleMainClass
  | nestHost
  deriving DecidableEq, Repr

inductive IndexListRole where
  | exceptions
  | modulePackages
  | nestMembers
  | permittedSubclasses
  deriving DecidableEq, Repr

/-- What the types of local variables are given as. -/
inductive VariableTypes where
  | descriptors
  | signatures
  deriving DecidableEq, Repr

mutual

/-- An attribute of an attribute table, with the length it declares for its data. -/
structure AttributeInfo where
  nameIndex : UInt16
  declaredLength : UInt32
  data : Attribute

inductive Attribute where
  | marker (which : Marker)
  | index (role : IndexRole) (value : UInt16)
  | indices (role : IndexListRole) (values : List UInt16)
  | enclosingMethod (classIndex methodIndex : UInt16)
  | code (body : Code)
  | stackMapTable (frames : List StackMapFrame)
  | innerClasses (classes : List InnerClass)
  | sourceDebugExtension (bytes : Bytes)
  | lineNumberTable (lines : List LineNumber)
  | localVariables (types : VariableTypes) (table : List LocalVariable)
  | annotations (visibility : Visibility) (values : List Annotation)
  | parameterAnnotations (visibility : Visibility) (parameters : List (List Annotation))
  | typeAnnotations (visibility : Visibility) (values : List TypeAnnotation)
  | annotationDefault (value : ElementValue)
  | bootstrapMethods (methods : List BootstrapMethod)
  | methodParameters (parameters : List MethodParameter)
  | moduleInfo (info : ModuleInfo)
  | record (components : List RecordComponent)
  | unknown (bytes : Bytes)

/-- The code of a method; its instructions are kept as bytes. -/
structure Code where
  maxStack : UInt16
  maxLocals : UInt16
  code : Bytes
  handlers : List ExceptionHandler
  attributes : List AttributeInfo

structure RecordComponent where
  nameIndex : UInt16
  descriptorIndex : UInt16
  attributes : List AttributeInfo

end

namespace Attribute

inductive Kind where
  | marker (which : Marker)
  | index (role : IndexRole)
  | indices (role : IndexListRole)
  | enclosingMethod
  | code
  | stackMapTable
  | innerClasses
  | sourceDebugExtension
  | lineNumberTable
  | localVariables (types : VariableTypes)
  | annotations (visibility : Visibility)
  | parameterAnnotations (visibility : Visibility)
  | typeAnnotations (visibility : Visibility)
  | annotationDefault
  | bootstrapMethods
  | methodParameters
  | moduleInfo
  | record
  deriving DecidableEq, Repr

def Kind.all : List Kind :=
  [.index .constantValue, .code, .stackMapTable, .indices .exceptions, .innerClasses,
    .enclosingMethod, .marker .synthetic, .marker .deprecated, .index .signature,
    .index .sourceFile, .sourceDebugExtension, .lineNumberTable, .localVariables .descriptors,
    .localVariables .signatures, .annotations .visible, .annotations .invisible,
    .parameterAnnotations .visible, .parameterAnnotations .invisible, .typeAnnotations .visible,
    .typeAnnotations .invisible, .annotationDefault, .bootstrapMethods, .methodParameters,
    .moduleInfo, .indices .modulePackages, .index .moduleMainClass, .index .nestHost,
    .indices .nestMembers, .indices .permittedSubclasses, .record]

def Kind.name : Kind → String
  | .marker .synthetic => "Synthetic"
  | .marker .deprecated => "Deprecated"
  | .index .constantValue => "ConstantValue"
  | .index .signature => "Signature"
  | .index .sourceFile => "SourceFile"
  | .index .moduleMainClass => "ModuleMainClass"
  | .index .nestHost => "NestHost"
  | .indices .exceptions => "Exceptions"
  | .indices .modulePackages => "ModulePackages"
  | .indices .nestMembers => "NestMembers"
  | .indices .permittedSubclasses => "PermittedSubclasses"
  | .enclosingMethod => "EnclosingMethod"
  | .code => "Code"
  | .stackMapTable => "StackMapTable"
  | .innerClasses => "InnerClasses"
  | .sourceDebugExtension => "SourceDebugExtension"
  | .lineNumberTable => "LineNumberTable"
  | .localVariables .descriptors => "LocalVariableTable"
  | .localVariables .signatures => "LocalVariableTypeTable"
  | .annotations .visible => "RuntimeVisibleAnnotations"
  | .annotations .invisible => "RuntimeInvisibleAnnotations"
  | .parameterAnnotations .visible => "RuntimeVisibleParameterAnnotations"
  | .parameterAnnotations .invisible => "RuntimeInvisibleParameterAnnotations"
  | .typeAnnotations .visible => "RuntimeVisibleTypeAnnotations"
  | .typeAnnotations .invisible => "RuntimeInvisibleTypeAnnotations"
  | .annotationDefault => "AnnotationDefault"
  | .bootstrapMethods => "BootstrapMethods"
  | .methodParameters => "MethodParameters"
  | .moduleInfo => "Module"
  | .record => "Record"

def Kind.ofName? (name : String) : Option Kind := Kind.all.find? (·.name == name)

def kind? : Attribute → Option Kind
  | .marker m => some (.marker m)
  | .index role _ => some (.index role)
  | .indices role _ => some (.indices role)
  | .enclosingMethod .. => some .enclosingMethod
  | .code _ => some .code
  | .stackMapTable _ => some .stackMapTable
  | .innerClasses _ => some .innerClasses
  | .sourceDebugExtension _ => some .sourceDebugExtension
  | .lineNumberTable _ => some .lineNumberTable
  | .localVariables types _ => some (.localVariables types)
  | .annotations visibility _ => some (.annotations visibility)
  | .parameterAnnotations visibility _ => some (.parameterAnnotations visibility)
  | .typeAnnotations visibility _ => some (.typeAnnotations visibility)
  | .annotationDefault _ => some .annotationDefault
  | .bootstrapMethods _ => some .bootstrapMethods
  | .methodParameters _ => some .methodParameters
  | .moduleInfo _ => some .moduleInfo
  | .record _ => some .record
  | .unknown _ => none

def name? (data : Attribute) : Option String := data.kind?.map (·.name)

def frameTable : Layout (List StackMapFrame) := .list 2 StackMapFrame.layout
def innerClassTable : Layout (List InnerClass) := .list 2 InnerClass.layout
def lineTable : Layout (List LineNumber) := .list 2 LineNumber.layout
def variableTable : Layout (List LocalVariable) := .list 2 LocalVariable.layout
def annotationList : Layout (List Annotation) := .list 2 Annotation.layout
def parameterList : Layout (List (List Annotation)) := .list 1 annotationList
def typeAnnotationList : Layout (List TypeAnnotation) := .list 2 TypeAnnotation.layout
def bootstrapTable : Layout (List BootstrapMethod) := .list 2 BootstrapMethod.layout
def parameterTable : Layout (List MethodParameter) := .list 1 MethodParameter.layout
def handlerTable : Layout (List ExceptionHandler) := .list 2 ExceptionHandler.layout

end Attribute

end ClassFormat
