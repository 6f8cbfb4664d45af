-- The declarations that every program sees: strings, arrays, dates, buffers, promises and a few
-- functions and objects. They are read like a program of their own.
import RouteTypes.Grammar.Program

namespace RouteTypes

/-- The declarations that every program sees. -/
def preludeSource : String :=
"
interface String \x7b
    length: number;
    charAt(pos: number): string;
    indexOf(search: string): number;
    slice(start?: number, end?: number): string;
    split(separator: string): string[];
    startsWith(search: string): boolean;
    endsWith(search: string): boolean;
    includes(search: string): boolean;
    toUpperCase(): string;
    toLowerCase(): string;
    trim(): string;
\x7d

interface Array<T> \x7b
    length: number;
    push(...items: T[]): number;
    pop(): T | undefined;
    join(separator?: string): string;
    map<U>(callback: (value: T, index: number) => U): U[];
    filter(predicate: (value: T, index: number) => boolean): T[];
    includes(value: T): boolean;
    indexOf(value: T): number;
    slice(start?: number, end?: number): T[];
    concat(...items: T[][]): T[];
\x7d

interface ArrayConstructor \x7b
    isArray(value: any): boolean;
\x7d

declare const Array: ArrayConstructor;

declare class Date \x7b
    constructor(value?: number | string);
    getTime(): number;
    getFullYear(): number;
    toISOString(): string;
\x7d

declare class ArrayBuffer \x7b
    constructor(byteLength: number);
    byteLength: number;
    slice(begin: number, end?: number): ArrayBuffer;
\x7d

interface Promise<T> \x7b
    then<R>(onfulfilled: (value: T) => R): Promise<R>;
\x7d

type Record<K, T> = \x7b [key: string]: T \x7d;

declare function parseInt(text: string): number;
declare function parseFloat(text: string): number;
declare function String(value: any): string;
declare function Number(value: any): number;
declare function Boolean(value: any): boolean;

declare const console: \x7b log(...data: any[]): void; error(...data: any[]): void \x7d;
declare const JSON: \x7b stringify(value: any): string; parse(text: string): any \x7d;
declare const Math: \x7b
    floor(x: number): number;
    max(...values: number[]): number;
    min(...values: number[]): number;
\x7d;
"

/-- The declarations that every program sees, as a tree. -/
def preludeRoot : Node := Node.ofTree .prelude (Program.ofSource preludeSource).tree

end RouteTypes
